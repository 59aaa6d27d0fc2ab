import Stencil.Element

/-!
# The tree of a template

A document is a list of nodes: texts, echoes, loops over a body, and (in trees that are not read
from a template) further documents. `Node.opening` is the canonical text of a node alone,
`Node.source` that of a node with all that it holds.
-/

set_option autoImplicit false

namespace Stencil

/-- The head of a loop: from `start` to `stop`, both included, by `step` or else by one. A step that
is left out is not the same as a step of one, since only the latter is written in the source. -/
structure Loop where
  name : String
  start : Int
  stop : Int
  step : Option Int
deriving DecidableEq

inductive Node where
  | document (children : List Node)
  | text (content : String)
  | echo (elements : List Element)
  | forLoop (loop : Loop) (body : List Node)

/-- The text of a tag: its opening, words set apart by one blank each, and the closing. All tags but
the end of a loop are written by it, so this is where the canonical blanks are decided. -/
def tagChars (opening : List Char) (words : List (List Char)) : List Char :=
  opening ++ words.flatMap (' ' :: ·) ++ [' ', '$', '}']

namespace Loop

def words (l : Loop) : List (List Char) :=
  l.name.toList :: (l.start :: l.stop :: l.step.toList).map integerChars

def chars (l : Loop) : List Char := tagChars ['{', '$', 'F', 'O', 'R'] l.words

def source (l : Loop) : String := String.ofList l.chars

end Loop

namespace Node

def children : Node → List Node
  | .document children => children
  | .forLoop _ body => body
  | _ => []

/-- The child at an index. A negative one is out of range, and does not count from the end. -/
def child? (n : Node) (index : Int) : Option Node :=
  if index < 0 then none else n.children[index.toNat]?

def childMessage (index : Int) : String := "Illegal child index: " ++ integerText index

/-! ## Canonical text -/

/-- Puts a backslash before every backslash and brace. These two are all that a text can not say by
itself: a backslash because it escapes, a brace because it may open a tag. -/
def escape (cs : List Char) : List Char :=
  cs.flatMap fun c => if c = '\\' ∨ c = '{' then ['\\', c] else [c]

def openingChars : Node → List Char
  | .document _ => []
  | .text content => escape content.toList
  | .echo elements => tagChars ['{', '$', '='] (elements.map Element.chars)
  | .forLoop loop _ => loop.chars

def opening (n : Node) : String := String.ofList n.openingChars

/-- The tag that ends a loop. It has no blank before its dollar sign, unlike all other tags. -/
def endChars : List Char := ['{', '$', 'E', 'N', 'D', '$', '}']

mutual

/-- The canonical text of a node with its children, which reads back as the node. A document within
a document leaves no trace in it. -/
def chars : Node → List Char
  | .document children => listChars children
  | .text content => openingChars (.text content)
  | .echo elements => openingChars (.echo elements)
  | .forLoop loop body => loop.chars ++ listChars body ++ endChars

def listChars : List Node → List Char
  | [] => []
  | n :: ns => chars n ++ listChars ns

end

def source (n : Node) : String := String.ofList n.chars

end Node

end Stencil
