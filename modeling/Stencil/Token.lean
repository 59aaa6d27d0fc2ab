/-!
# Tokens of a template

A template is a sequence of texts and tags, closed by an end token. Every token tells where its
first character stands: `Place.offset` counts code points from 0, `Place.line` and `Place.column`
from 1, and only a line feed starts a new line.
-/

set_option autoImplicit false

namespace Stencil

structure Place where
  offset : Nat
  line : Nat
  column : Nat
deriving DecidableEq

namespace Place

def start : Place := ⟨0, 1, 1⟩

/-- The place behind one character. A line feed begins a line; no other character does. -/
def next (p : Place) (c : Char) : Place :=
  if c = '\n' then ⟨p.offset + 1, p.line + 1, 1⟩ else ⟨p.offset + 1, p.line, p.column + 1⟩

/-- The place behind some characters. -/
def after (p : Place) (cs : List Char) : Place := cs.foldl next p

def tell (p : Place) (message : String) : String :=
  message ++ " at " ++ toString p.line ++ ":" ++ toString p.column

end Place

inductive TokenKind where
  | text
  | tag
  | finish
deriving DecidableEq

/-- A token. The value of a text has its escapes resolved; that of a tag is the tag as written. -/
structure Token where
  kind : TokenKind
  value : String
  place : Place
deriving DecidableEq

end Stencil
