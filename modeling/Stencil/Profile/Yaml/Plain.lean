import Stencil.Profile.Yaml.Cursor

/-!
# Plain scalars

A plain scalar stands without quotes and goes on up to a colon that ends a key, a comment, a tab,
or a line that is not indented far enough. Within brackets it also ends at their marks, and
indentation counts for nothing. Blanks and line ends inside it are folded.
-/

set_option autoImplicit false

namespace Stencil

namespace Yaml

/-- Whether a plain scalar can start with a character: not with a mark, save for a dash, a question
mark or a colon that belongs to a word. -/
def startsPlain (flow : Bool) (c : Char) (cs : List Char) : Bool :=
  if c == '-' then !atGap cs
  else if c == ':' then !atGap cs || flow && !cs.head?.any isGap
  else if c == '?' then !flow && !atGap cs
  else !(isFlowMark c || isGap c || isBreak c || c == '#' || c == '&' || c == '*' || c == '!' ||
    c == '|' || c == '>' || c == '\'' || c == '"' || c == '%' || c == '@' || c.toNat == 0x60)

/-- Whether a word of a plain scalar ends in front of a character. A colon belongs to the word
unless a blank or the end of the line follows it. -/
def endsPlain (flow : Bool) (c : Char) (cs : List Char) : Bool :=
  if c == ':' then atGap cs else atGap [c] || flow && isFlowMark c

def plainWord (flow : Bool) : List Char → List Char
  | [] => []
  | c :: cs => if endsPlain flow c cs then [] else c :: plainWord flow cs

/-- What follows a word of a plain scalar. -/
structure PlainGap where
  /-- What the gap stands for if the scalar goes on; nothing if it cannot. -/
  chars : List Char
  cursor : Cursor
  /-- Whether a line ended in the gap. -/
  newLine : Bool

/-- Passes empty lines and the blanks in front of the next one; `none` if a document ends there. -/
def plainBreaks : Nat → Cursor → Option (List Char) × Cursor
  | 0, c => (none, c)
  | fuel + 1, c =>
    if c.at? ' ' then plainBreaks fuel c.next
    else
      match c.break? with
      | none => (some [], c)
      | some (b, c) =>
        if atDocumentMark c.rest then (none, c)
        else
          let (bs, c) := plainBreaks fuel c
          (bs.map (b :: ·), c)

/-- The gap behind a word of a plain scalar. -/
def plainGap (c : Cursor) : PlainGap :=
  let blanks := c.word (· == ' ')
  let c := c.advance blanks.length
  match c.break? with
  | none => ⟨blanks, c, false⟩
  | some (first, c) =>
    if atDocumentMark c.rest then ⟨[], c, true⟩
    else
      match plainBreaks (c.rest.length + 1) c with
      | (none, c) => ⟨[], c, true⟩
      | (some others, c) => ⟨fold first others, c, true⟩

/-- Reads a plain scalar whose next word follows a gap; its lines start in column `indent` or
further right. -/
def plainFrom (flow : Bool) (indent : Nat) : Nat → PlainGap → List Char × PlainGap
  | 0, gap => ([], gap)
  | fuel + 1, gap =>
    let word := plainWord flow gap.cursor.rest
    if word.isEmpty || gap.cursor.at? '#' then ([], gap)
    else
      let after := plainGap (gap.cursor.advance word.length)
      let ends := after.chars.isEmpty || after.cursor.at? '#' ||
        !flow && decide (after.cursor.column < indent)
      let (more, last) := if ends then ([], after) else plainFrom flow indent fuel after
      (gap.chars ++ word ++ more, last)

/-- A plain scalar and what follows it. -/
def plain (flow : Bool) (indent : Nat) (c : Cursor) : List Char × PlainGap :=
  plainFrom flow indent (c.rest.length + 1) ⟨[], c, false⟩

end Yaml

end Stencil
