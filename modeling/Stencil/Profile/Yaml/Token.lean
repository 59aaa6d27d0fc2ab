import Stencil.Profile.Yaml.Cursor

/-!
# Tokens of a profile file

A file is read as tokens: the marks of its structure and its scalars. Indentation is structure, so
a block has tokens at its start and at its end that no characters stand for.
-/

set_option autoImplicit false

namespace Stencil

namespace Yaml

/-- What a plain scalar or a tag says that a scalar is. -/
inductive Kind where
  | null
  | bool
  | integer
  | double
  | moment
  | text
  /-- The key that takes over the entries of other mappings. -/
  | merge
  /-- A lone equals sign, which is a text only as a key. -/
  | equals
  | list
  | mapping
deriving DecidableEq

/-- A tag: one that names a kind, or one that leaves the kind to the words of the scalar. -/
inductive Tag where
  | kind (k : Kind)
  | implied
deriving DecidableEq

inductive Token where
  /-- A line of settings; for the version, its first number. -/
  | directive (version : Option Nat)
  | documentStart
  | documentEnd
  | blockList
  | blockMapping
  | blockEnd
  | listOpen
  | listClose
  | mappingOpen
  | mappingClose
  /-- The dash in front of an item of a block. -/
  | item
  /-- The comma between items in brackets. -/
  | comma
  | key
  | value
  | reference (name : List Char)
  | anchor (name : List Char)
  | tag (t : Tag)
  | scalar (plain : Bool) (text : List Char)
  /-- The end of the file. -/
  | finish
deriving DecidableEq

/-! ## Names -/

/-- The characters of a name for what stands behind it: all that show, but for the marks of
collections in brackets. -/
def isNameChar (c : Char) : Bool :=
  let n := c.toNat
  !isFlowMark c && ((0x21 ≤ n && n ≤ 0x7e) || (0xa0 ≤ n && n != 0xfeff && n != 0xfffe &&
    n != 0xffff))

/-- What can follow a name. -/
def endsName (cs : List Char) : Bool :=
  cs.head?.all fun c =>
    isGap c || isBreak c || isFlowMark c || c == '?' || c == ':' || c == '%' || c == '@' ||
      c.toNat == 0x60

/-- A name behind its mark. -/
def nameToken (make : List Char → Token) (c : Cursor) : Except YamlFault (Token × Cursor) :=
  let c := c.next
  let name := c.word isNameChar
  let after := c.advance name.length
  if name.isEmpty || !endsName after.rest then malformed else .ok (make name, after)

/-! ## Tags -/

/-- The tags that name a kind. -/
def kindNames : List (String × Kind) :=
  [("null", .null), ("bool", .bool), ("int", .integer), ("float", .double), ("timestamp", .moment),
    ("str", .text), ("merge", .merge), ("value", .equals), ("seq", .list), ("map", .mapping)]

/-- The tag that is written in some way: with one sign for the kind that the words imply, with two
for a kind by its short name, or with the full name in angle brackets. -/
def tagOf? (written : List Char) : Option Tag :=
  let full := "!<tag:yaml.org,2002:".toList
  let named := fun name => (kindNames.lookup (String.ofList name)).map Tag.kind
  match written with
  | ['!'] => some .implied
  | '!' :: '!' :: name => named name
  | _ =>
    if full.isPrefixOf written && written.getLast? == some '>' then
      named ((written.drop full.length).dropLast)
    else none

/-- A tag, which a blank or the end of its line must follow. -/
def tagToken (c : Cursor) : Except YamlFault (Token × Cursor) :=
  let written := c.word fun ch => !(isGap ch || isBreak ch)
  let after := c.advance written.length
  match tagOf? written with
  | some t => if after.at? '\t' && written ≠ ['!'] then malformed else .ok (.tag t, after)
  | none => malformed

/-! ## Settings -/

def number (c : Cursor) : Except YamlFault (Nat × Cursor) :=
  let digits := c.word Char.isDigit
  if digits.isEmpty then malformed
  else .ok (Nat.ofDigitChars 10 digits 0, c.advance digits.length)

/-- Whether a setting's name or number ends here. -/
def endsSetting (cs : List Char) : Bool := cs.head?.all fun c => c == ' ' || isBreak c

/-- A line of settings. Only the version is known; the tags that another setting would declare are
refused, and other lines are passed over. -/
def directiveToken (c : Cursor) : Except YamlFault (Token × Cursor) := do
  let c := c.next
  let name := c.word fun ch =>
    ch.isAlphanum || ch == '-' || ch == '_' || ch == ':' || ch == '.'
  let c := c.advance name.length
  if name.isEmpty || !endsSetting c.rest || name = "TAG".toList then malformed
  else if name = "YAML".toList then
    let (major, c) ← number (c.skip (· == ' '))
    if c.at? '.' then
      let (_, c) ← number c.next
      if endsSetting c.rest then .ok (.directive (some major), ← c.endLine) else malformed
    else malformed
  else .ok (.directive none, ← (c.skip fun ch => !atLineEnd [ch]).endLine)

end Yaml

end Stencil
