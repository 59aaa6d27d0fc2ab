import Stencil.Profile.Yaml.Cursor

/-!
# Block scalars

A block scalar holds the lines below its mark that are indented as far as the first one, or as far
as the mark says. Its lines stay as they are, or, behind the other mark, are folded where no line
is indented further. The mark also says what becomes of the line ends behind the last line: one of
them stays, or none, or all.
-/

set_option autoImplicit false

namespace Stencil

namespace Yaml

/-- What becomes of the line ends behind the last line: all are dropped, one is kept if there is
one, or all are kept. -/
inductive Chomping where
  | strip
  | clip
  | keep
deriving DecidableEq

/-- What stands behind the mark of a block scalar. -/
structure BlockHeader where
  chomping : Chomping
  /-- How much further than their surroundings the lines are indented. -/
  increment : Option Nat

def chomping? (c : Cursor) : Option Chomping :=
  if c.at? '+' then some .keep else if c.at? '-' then some .strip else none

/-- The digit that says how far the lines are indented. -/
def increment? (c : Cursor) : Except YamlFault (Option Nat) :=
  match c.rest with
  | [] => .ok none
  | ch :: _ =>
    if ch == '0' then malformed
    else if ch.isDigit then .ok (some (ch.toNat - 48))
    else .ok none

def passIf {α : Type} (found : Option α) (c : Cursor) : Cursor :=
  if found.isSome then c.next else c

/-- The header behind a mark, and the cursor in the next line. The sign and the digit can stand in
either order. -/
def blockHeader (c : Cursor) : Except YamlFault (BlockHeader × Cursor) := do
  let early := chomping? c
  let c := passIf early c
  let increment ← increment? c
  let c := passIf increment c
  let late := if early.isSome || increment.isNone then none else chomping? c
  let c := passIf late c
  if c.rest.head?.all fun ch => ch == ' ' || isBreak ch then
    .ok (⟨(early <|> late).getD .clip, increment⟩, ← c.endLine)
  else malformed

/-- Passes empty lines and the indentation of the next one, up to a column. -/
def blockBreaks (indent : Nat) : Nat → Cursor → List Char × Cursor
  | 0, c => ([], c)
  | fuel + 1, c =>
    let c := c.advance (min (c.word (· == ' ')).length (indent - c.column))
    match c.break? with
    | none => ([], c)
    | some (b, c) =>
      let (bs, c) := blockBreaks indent fuel c
      (b :: bs, c)

/-- Empty lines in front of the first line, with the column where the first of them ends and the
greatest column that blanks reach. -/
structure BlockStart where
  breaks : List Char
  firstEnd : Option Nat
  reach : Nat
  cursor : Cursor

def blockStart (firstEnd : Option Nat) (reach : Nat) : Nat → Cursor → BlockStart
  | 0, c => ⟨[], firstEnd, reach, c⟩
  | fuel + 1, c =>
    if c.at? ' ' then
      let c := c.next
      blockStart firstEnd (max reach c.column) fuel c
    else
      match c.break? with
      | none => ⟨[], firstEnd, reach, c⟩
      | some (b, after) =>
        let s := blockStart (firstEnd <|> some c.column) reach fuel after
        { s with breaks := b :: s.breaks }

/-- What a line end between two lines stands for. -/
def blockBreak (folded : Bool) (value : Option Char) (joins : Bool) (breaks : List Char) :
    List Char :=
  if folded && value == some '\n' && joins then if breaks.isEmpty then [' '] else []
  else value.toList

/-- Reads the lines from the first one on, which follows `breaks`. `top` tells that a document mark
ends the scalar. -/
def blockLines (folded top : Bool) (chomping : Chomping) (indent : Nat) :
    Nat → List Char → Cursor → List Char × Cursor
  | 0, _, c => ([], c)
  | fuel + 1, breaks, c =>
    let line := c.word fun ch => !atLineEnd [ch]
    let after := c.advance line.length
    let (value, after) := match after.break? with
      | some (b, after) => (some b, after)
      | none => (none, after)
    let (next, after) := blockBreaks indent (after.rest.length + 1) after
    let text := breaks ++ line
    if after.column = indent ∧ after.rest ≠ [] ∧
        ¬ (top ∧ after.column = 0 ∧ atDocumentMark after.rest) then
      let joins := !c.rest.head?.any isGap && !after.rest.head?.any isGap
      let (more, last) := blockLines folded top chomping indent fuel next after
      (text ++ blockBreak folded value joins next ++ more, last)
    else
      match chomping with
      | .strip => (text, after)
      | .clip => (text ++ value.toList, after)
      | .keep => (text ++ value.toList ++ next, after)

/-- A block scalar that starts at its mark, in surroundings that are indented less than `least`. -/
def blockScalar (folded : Bool) (least : Nat) (c : Cursor) :
    Except YamlFault (List Char × Cursor) := do
  let (header, c) ← blockHeader c.next
  let (indent, breaks, c) ← match header.increment with
    | some n =>
      let indent := max least 1 + n - 1
      .ok (indent, blockBreaks indent (c.rest.length + 1) c)
    | none =>
      let s := blockStart none 0 (c.rest.length + 1) c
      if s.firstEnd.any fun n => 0 < n && n < s.reach then malformed
      else .ok (max least s.reach, s.breaks, s.cursor)
  if c.column = indent ∧ c.rest ≠ [] then
    let top := header.increment.isNone && least == 0
    .ok (blockLines folded top header.chomping indent (c.rest.length + 1) breaks c)
  else .ok (if header.chomping = .keep then breaks else [], c)

end Yaml

end Stencil
