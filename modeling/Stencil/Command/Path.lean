/-!
# Paths

A path is written as steps between slashes. Empty steps and steps to the same place count for
nothing, so that one place is named in one way; steps upwards stay, since what they lead to
depends on the files. A path that starts with one slash, or with exactly two, starts at a root of
its own.
-/

set_option autoImplicit false

namespace Stencil

structure Path where
  /-- How many slashes are written in front: none for a path that starts here. -/
  slashes : Nat
  steps : List (List Char)
deriving DecidableEq

namespace Path

/-- The pieces of a text between its slashes, empty ones included: two slashes in a row have an
empty piece between them, which `ofText` drops. -/
def pieces : List Char → List (List Char)
  | [] => [[]]
  | c :: cs =>
    match pieces cs with
    | [] => [[c]]
    | p :: ps => if c = '/' then [] :: p :: ps else (c :: p) :: ps

/-- The slashes of a root, from those that a text starts with. Two of them are another root than
one; three or more are the same as one. -/
def rootSlashes (count : Nat) : Nat := if count ≤ 2 then count else 1

/-- The path that a text names. Empty steps and steps to the same place are dropped, since reports
show a path without them. -/
def ofText (s : String) : Path where
  slashes := rootSlashes (s.toList.takeWhile (· == '/')).length
  steps := (pieces s.toList).filter fun p => !(p.isEmpty || p == ['.'])

/-- The characters of a path. One without a step and without a root is written as a point, since an
empty text would name nothing. -/
def chars (p : Path) : List Char :=
  let body := List.intercalate ['/'] p.steps
  if p.slashes = 0 ∧ body.isEmpty then ['.'] else List.replicate p.slashes '/' ++ body

def text (p : Path) : String := String.ofList p.chars

end Path

end Stencil
