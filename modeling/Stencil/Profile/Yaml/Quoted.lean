import Stencil.Profile.Yaml.Cursor

/-!
# Quoted scalars

Between single quotes only a quote is special, which is written twice. Between double quotes a
backslash starts an escape, and in front of the end of a line it takes the end away. A quoted
scalar can run over several lines, whose ends are folded, but not over the end of the document.
-/

set_option autoImplicit false

namespace Stencil

namespace Yaml

/-! ## Escapes -/

/-- The escapes of one character. Those that are not listed, and give no code point, are errors. -/
def escapes : List (Char × Char) :=
  [('0', '\x00'), ('a', '\x07'), ('b', '\x08'), ('t', '\t'), ('\t', '\t'), ('n', '\n'),
    ('v', '\x0b'), ('f', '\x0c'), ('r', '\r'), ('e', '\x1b'), (' ', ' '), ('"', '"'), ('/', '/'),
    ('\\', '\\'), ('N', '\x85'), ('_', '\xa0'), ('L', '\u2028'), ('P', '\u2029')]

def hexDigit? (c : Char) : Option Nat :=
  if c.isDigit then some (c.toNat - 48)
  else if 'a' ≤ c ∧ c ≤ 'f' then some (c.toNat - 87)
  else if 'A' ≤ c ∧ c ≤ 'F' then some (c.toNat - 55)
  else none

def hexValue? (cs : List Char) : Option Nat :=
  cs.foldlM (fun n c => (hexDigit? c).map (n * 16 + ·)) 0

/-- How many digits follow an escape that gives a code point. -/
def hexWidth? (c : Char) : Option Nat :=
  if c = 'x' then some 2 else if c = 'u' then some 4 else if c = 'U' then some 8 else none

/-- The character of a code point. A surrogate has none, so a file with one is malformed; that a
number lies beyond all code points is said as such. -/
def codePoint (n : Nat) : Except YamlFault Char :=
  if n.isValidChar then .ok (Char.ofNat n)
  else if n < 0x110000 then malformed
  else if n < Nat.pow 2 31 then .error (.unfit "chr() arg not in range(0x110000)")
  else .error .outOfRange

/-! ## Lines -/

/-- Passes empty lines, and the blanks in front of a line. -/
def quotedBreaks : Nat → Cursor → Except YamlFault (List Char × Cursor)
  | 0, _ => malformed
  | fuel + 1, c =>
    if atDocumentMark c.rest then malformed
    else
      let c := c.skip isGap
      match c.break? with
      | none => .ok ([], c)
      | some (b, c) => (quotedBreaks fuel c).map fun (bs, c) => (b :: bs, c)

/-- What the blanks and line ends that come next stand for. -/
def quotedGap (c : Cursor) : Except YamlFault (List Char × Cursor) :=
  let blanks := c.word isGap
  let c := c.advance blanks.length
  match c.break? with
  | none => .ok (blanks, c)
  | some (first, c) =>
    (quotedBreaks (c.rest.length + 1) c).map fun (others, c) => (fold first others, c)

/-- What an escape stands for, from behind its backslash. -/
def escape (c : Cursor) : Except YamlFault (List Char × Cursor) :=
  match c.rest with
  | [] => malformed
  | ch :: cs =>
    match escapes.lookup ch, hexWidth? ch, c.break? with
    | some value, _, _ => .ok ([value], c.next)
    | none, some width, _ =>
      match hexValue? (cs.take width) with
      | some n =>
        if width ≤ cs.length then do .ok ([← codePoint n], c.advance (width + 1)) else malformed
      | none => malformed
    | none, none, some (_, c) => quotedBreaks (c.rest.length + 1) c
    | none, none, none => malformed

/-! ## Whole scalars -/

/-- Reads a quoted scalar from behind its first quote. -/
def quotedFrom (quote : Char) : Nat → Cursor → Except YamlFault (List Char × Cursor)
  | 0, _ => malformed
  | fuel + 1, c =>
    match c.rest with
    | [] => malformed
    | ch :: cs => do
      if ch == quote && (quote == '"' || cs.head? != some quote) then .ok ([], c.next)
      else
        let (piece, c) ←
          if ch == quote then .ok ([quote], c.advance 2)
          else if quote == '"' && ch == '\\' then escape c.next
          else if isGap ch || isBreak ch then quotedGap c
          else .ok ([ch], c.next)
        let (more, c) ← quotedFrom quote fuel c
        .ok (piece ++ more, c)

/-- A quoted scalar that starts here, and the cursor behind it. -/
def quoted (quote : Char) (c : Cursor) : Except YamlFault (List Char × Cursor) :=
  quotedFrom quote (c.rest.length + 1) c.next

end Yaml

end Stencil
