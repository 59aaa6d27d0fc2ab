/-!
# Places in a profile file

A cursor stands between two characters of a file and knows how many characters it has passed, and
in which line and column it stands. Three characters besides the line feed end a line, but only the
line feed starts a new one in the count of lines and columns, and a byte order mark takes no column.
-/

set_option autoImplicit false

namespace Stencil

/-- Why a file has no data. What breaks a rule of the layout is malformed; the other faults are met
later, when a scalar, a number or a key is made of what was laid out well. -/
inductive YamlFault where
  | malformed
  /-- A scalar looks like data of some kind and is none. -/
  | unfit (reason : String)
  /-- A number, a day or a code point lies beyond what there is. -/
  | outOfRange
  /-- A row that holds data of a kind that can not be part of a key. -/
  | unfitKey (kind : String)
deriving DecidableEq

namespace Yaml

def malformed {α : Type} : Except YamlFault α := .error .malformed

/-! ## Kinds of characters -/

def isAllowed (c : Char) : Bool :=
  let n := c.toNat
  n == 9 || n == 10 || n == 13 || (0x20 ≤ n && n ≤ 0x7e) || n == 0x85 ||
    (0xa0 ≤ n && n != 0xfffe && n != 0xffff)

def isGap (c : Char) : Bool := c == ' ' || c == '\t'

/-- What a character that ends a line stands for in a scalar. -/
def breakValue? (c : Char) : Option Char :=
  if c == '\n' || c == '\x85' then some '\n'
  else if c == '\u2028' || c == '\u2029' then some c
  else none

def isBreak (c : Char) : Bool := (breakValue? c).isSome

def atLineEnd (cs : List Char) : Bool := cs.head?.all isBreak

/-- Whether a word ends here: at a blank or at the end of a line. -/
def atGap (cs : List Char) : Bool := cs.head?.all isGap || atLineEnd cs

def isFlowMark (c : Char) : Bool :=
  c == ',' || c == '[' || c == ']' || c == '\x7b' || c == '\x7d'

/-- Whether a mark of three characters that bounds a document stands here. -/
def atMark (mark : String) (cs : List Char) : Bool :=
  mark.toList.isPrefixOf cs && atGap (cs.drop 3)

/-- Whether a document starts or ends here, provided that a line does. -/
def atDocumentMark (cs : List Char) : Bool := atMark "---" cs || atMark "..." cs

/-! ## Cursors -/

structure Cursor where
  rest : List Char
  /-- How many characters have been passed, line ends included: the length of a key is measured with
  this and not with columns. -/
  index : Nat
  line : Nat
  column : Nat

namespace Cursor

def ofChars (cs : List Char) : Cursor := ⟨cs, 0, 0, 0⟩

def next (c : Cursor) : Cursor :=
  match c.rest with
  | [] => c
  | '\n' :: cs => ⟨cs, c.index + 1, c.line + 1, 0⟩
  | '\ufeff' :: cs => ⟨cs, c.index + 1, c.line, c.column⟩
  | _ :: cs => ⟨cs, c.index + 1, c.line, c.column + 1⟩

def advance (c : Cursor) : Nat → Cursor
  | 0 => c
  | n + 1 => c.next.advance n

/-- The characters of a kind that come next. -/
def word (c : Cursor) (p : Char → Bool) : List Char := c.rest.takeWhile p

def skip (c : Cursor) (p : Char → Bool) : Cursor := c.advance (c.word p).length

def at? (c : Cursor) (ch : Char) : Bool := c.rest.head? == some ch

/-- What the end of a line stands for in a scalar, and the cursor behind it. -/
def break? (c : Cursor) : Option (Char × Cursor) :=
  match c.rest with
  | [] => none
  | ch :: _ => (breakValue? ch).map (·, c.next)

/-- Passes a comment, if one starts here. -/
def skipComment (c : Cursor) : Cursor :=
  if c.at? '#' then c.skip (fun ch => !atLineEnd [ch]) else c

/-- Passes what is left of a line: blanks, a comment and the end of the line, and nothing else. -/
def endLine (c : Cursor) : Except YamlFault Cursor :=
  let c := (c.skip (· == ' ')).skipComment
  match c.rest, c.break? with
  | [], _ => .ok c
  | _, some (_, c) => .ok c
  | _, none => malformed

end Cursor

/-- What the ends of lines stand for within a scalar: a single one is a blank, and of several the
first one counts for nothing, unless it is more than the end of a line. -/
def fold (first : Char) (others : List Char) : List Char :=
  if first ≠ '\n' then first :: others
  else if others.isEmpty then [' '] else others

end Yaml

end Stencil
