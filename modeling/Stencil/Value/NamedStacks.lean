import Stencil.Dictionary
import Stencil.Value.Cell

/-!
# Stacks under names

Every name has a stack of its own; a name that is not listed has an empty one. Loops keep the values
of their variables here, so that an inner loop over the same name hides the value of an outer one.

What stands on the stacks is left open. A loop makes its cell itself and hands it to nobody, so a
run keeps whole cells on its stacks. Callers who may put one cell on two stacks, or keep it for
later, are those of `CellStacks`: there the stacks hold what tells cells apart.
-/

set_option autoImplicit false

namespace Stencil

/-- Stacks under names, the top of each first. They are cells unless something else is said, since
that is what templates are run with. -/
structure NamedStacks (α : Type := Cell) where
  table : Dictionary (List α)
deriving DecidableEq

inductive StackFault where
  | noStack (name : String)
  | notCell (v : Value)
  | value (fault : ValueFault)
deriving DecidableEq

def StackFault.message : StackFault → String
  | .noStack name => "No such stack: '" ++ name ++ "'"
  | .notCell v => "Expected ValueWrapper, got " ++ v.kindName
  | .value fault => fault.message

namespace NamedStacks

section

variable {α : Type}

def empty : NamedStacks α := ⟨.empty⟩

/-- What stands under a name, the top first. -/
def cells (s : NamedStacks α) (name : String) : List α := (s.table.get? name).getD []

/-- A stack in place of the one under a name. An empty one is taken off the list, since `isEmpty`
asks for nothing but whether the name is listed. -/
def setCells (s : NamedStacks α) (name : String) (cells : List α) : NamedStacks α :=
  if cells.isEmpty then ⟨s.table.erase name⟩ else ⟨s.table.put name cells⟩

def push (s : NamedStacks α) (name : String) (c : α) : NamedStacks α :=
  s.setCells name (c :: s.cells name)

/-- The top under a name. -/
def tryPeek (s : NamedStacks α) (name : String) : Option α := (s.cells name).head?

/-- The top under a name and the stacks without it. -/
def tryPop (s : NamedStacks α) (name : String) : Option (α × NamedStacks α) :=
  match s.cells name with
  | [] => none
  | c :: rest => some (c, s.setCells name rest)

def peek (s : NamedStacks α) (name : String) : Except StackFault α :=
  (s.tryPeek name).elim (.error (.noStack name)) .ok

def pop (s : NamedStacks α) (name : String) : Except StackFault (α × NamedStacks α) :=
  (s.tryPop name).elim (.error (.noStack name)) .ok

/-- Whether no stack is listed under a name. The stack itself is not looked at: the two agree only
because an empty one is never listed. -/
def isEmpty (s : NamedStacks α) (name : String) : Bool := !s.table.contains name

@[simp] theorem cells_empty (name : String) : (empty : NamedStacks α).cells name = [] := rfl

theorem cells_setCells (s : NamedStacks α) (name k : String) (cells : List α) :
    (s.setCells name cells).cells k = if k = name then cells else s.cells k := by
  unfold setCells NamedStacks.cells
  by_cases h : k = name
  · subst h
    cases cells <;> simp [Dictionary.get?_erase]
  · cases cells <;> simp [Dictionary.get?_erase, Dictionary.get?_put_of_ne, h]

end

/-- Adds a value to the top cell under a name, in its place. It is what a loop does between two
turns. -/
def increment (s : NamedStacks) (name : String) (v : Value) : Except StackFault NamedStacks :=
  match s.cells name with
  | [] => .error (.noStack name)
  | c :: rest =>
    match c.increment v with
    | .ok c' => .ok (s.setCells name (c' :: rest))
    | .error e => .error (.value e)

/-! ## Operations as data -/

/-- What a caller can do to the stacks who makes a cell of its own for every value that he pushes
and keeps none of them, as a loop does. For him the cells need no identity, and what is pushed is a
value; `pushBare` gives a value where a cell is due. Whoever shares cells or keeps them has the
operations of `CellStacks`, by which these are answered alike (`CellStacks.replies_own`). -/
inductive Op where
  | push (name : String) (v : Value)
  | pushBare (name : String) (v : Value)
  | pop (name : String)
  | peek (name : String)
  | tryPop (name : String)
  | tryPeek (name : String)
  | increment (name : String) (v : Value)
  | isEmpty (name : String)
  | clear
deriving DecidableEq

namespace Op

/-- The name that an operation is about. -/
def name? : Op → Option String
  | .push name _ | .pushBare name _ | .pop name | .peek name | .tryPop name | .tryPeek name
  | .increment name _ | .isEmpty name => some name
  | .clear => none

end Op

inductive Answer where
  | done
  | cell (c : Option Cell)
  | truth (b : Bool)
deriving DecidableEq

/-- The answer of an operation and the stacks after it. A value is pushed in a new cell, which only
the stack holds, so that adding to the cell on top is putting another one in its place. -/
def apply (s : NamedStacks) : Op → Except StackFault Answer × NamedStacks
  | .push name v =>
    match Cell.ofValue v with
    | .ok c => (.ok .done, s.push name c)
    | .error e => (.error (.value e), s)
  | .pushBare _ v => (.error (.notCell v), s)
  | .pop name =>
    match s.pop name with
    | .ok (c, s') => (.ok (.cell (some c)), s')
    | .error e => (.error e, s)
  | .peek name => ((s.peek name).map (.cell ∘ some), s)
  | .tryPop name =>
    match s.tryPop name with
    | some (c, s') => (.ok (.cell (some c)), s')
    | none => (.ok (.cell none), s)
  | .tryPeek name => (.ok (.cell (s.tryPeek name)), s)
  | .increment name v =>
    match s.increment name v with
    | .ok s' => (.ok .done, s')
    | .error e => (.error e, s)
  | .isEmpty name => (.ok (.truth (s.isEmpty name)), s)
  | .clear => (.ok .done, empty)

end NamedStacks

end Stencil
