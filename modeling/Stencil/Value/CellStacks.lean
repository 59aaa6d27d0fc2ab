import Stencil.Value.NamedStacks

/-!
# Stacks that share cells

A stack does not copy the cell that is put on it. Whoever has a cell can put it on several stacks,
can look at it later through any of them, and can change it while it stands there, or after it has
been taken off. So a cell is told here by an identity, the stacks hold identities, and what the
cells hold is kept beside the stacks.
-/

set_option autoImplicit false

namespace Stencil

/-- What tells a cell from all others, also from one that holds the same value. Only whether two
identities are equal means anything. -/
abbrev CellId := Nat

/-- What every cell holds, and the stacks that some of them stand on. A cell that nobody has used so
far is in here too: what it holds is what it is going to be made with. -/
structure CellStacks where
  held : CellId → Cell
  placed : NamedStacks CellId

namespace CellStacks

/-- What can be done to the stack of one name. `pushBare` gives a value where a cell is due, and
`change` looks at the top and does something to that cell, which stays where it is. -/
inductive StackOp where
  | push (c : CellId)
  | pushBare (v : Value)
  | pop
  | peek
  | tryPop
  | tryPeek
  | change (op : Cell.Op)
  | isEmpty
deriving DecidableEq

/-- What can be done by a caller who has seen some cells: to the stack of a name, to a cell that he
has kept, wherever it stands by now, and to all stacks at once. -/
inductive Op where
  | under (name : String) (op : StackOp)
  | change (c : CellId) (op : Cell.Op)
  | clear
deriving DecidableEq

/-- What an operation answers. A cell is handed out itself: the answer has its identity, and what it
holds at that moment. -/
inductive Answer where
  | done
  | cell (c : Option (CellId × Cell))
  | changed (sign : Option Int)
  | truth (b : Bool)
deriving DecidableEq

/-- Does something to a cell, whatever stacks it stands on. The cell is put back in its place, also
if nothing has come of it. -/
def changeCell (held : CellId → Cell) (c : CellId) (op : Cell.Op) :
    Except StackFault Answer × (CellId → Cell) :=
  let left := (held c).apply op
  (match left.1 with
    | .ok sign => .ok (.changed sign)
    | .error fault => .error (.value fault),
    fun k => if k = c then left.2 else held k)

def change (s : CellStacks) (c : CellId) (op : Cell.Op) : Except StackFault Answer × CellStacks :=
  ((changeCell s.held c op).1, { s with held := (changeCell s.held c op).2 })

def applyUnder (s : CellStacks) (name : String) : StackOp → Except StackFault Answer × CellStacks
  | .push c => (.ok .done, { s with placed := s.placed.push name c })
  | .pushBare v => (.error (.notCell v), s)
  | .pop =>
    match s.placed.pop name with
    | .ok (c, placed) => (.ok (.cell (some (c, s.held c))), { s with placed })
    | .error e => (.error e, s)
  | .peek => ((s.placed.peek name).map fun c => .cell (some (c, s.held c)), s)
  | .tryPop =>
    match s.placed.tryPop name with
    | some (c, placed) => (.ok (.cell (some (c, s.held c))), { s with placed })
    | none => (.ok (.cell none), s)
  | .tryPeek => (.ok (.cell ((s.placed.tryPeek name).map fun c => (c, s.held c))), s)
  | .change op =>
    match s.placed.peek name with
    | .ok c => s.change c op
    | .error e => (.error e, s)
  | .isEmpty => (.ok (.truth (s.placed.isEmpty name)), s)

def apply (s : CellStacks) : Op → Except StackFault Answer × CellStacks
  | .under name op => s.applyUnder name op
  | .change c op => s.change c op
  | .clear => (.ok .done, { s with placed := .empty })

/-- What is seen of a stack by looking through it, the top first. -/
def values (s : CellStacks) (name : String) : List Cell := (s.placed.cells name).map s.held

end CellStacks

end Stencil
