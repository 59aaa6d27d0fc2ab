import Stencil.Token.Lexer
import Stencil.Tag

/-!
# Reading a template

The tokens of a template build its tree: texts and echoes are added to the innermost open loop,
the head of a loop opens one, and an end tag closes it. Reading stops at the first error, and no
token behind that one is looked at.

A `Parser` keeps its lexer between requests, so a request after an error goes on behind the point
where the error was met, and it keeps the last document that it read.
-/

set_option autoImplicit false

namespace Stencil

/-- Why tokens are no document. The first two are met at a tag, the last only at the end, where it
is known how many loops stay open. -/
inductive ParseFault where
  | unmatchedEnd
  | tag (fault : TagFault)
  | unclosedLoops (count : Nat)
deriving DecidableEq

def ParseFault.text : ParseFault → String
  | .unmatchedEnd => "Unmatched END: more END tags than open FOR tags"
  | .tag fault => fault.message
  | .unclosedLoops count =>
    "Unclosed FOR tag: " ++ toString count ++ " FOR tag(s) without matching END"

/-- Why a text is no template: it can not be cut into tokens, or a token does not fit. Both kinds
are found in one pass, so whichever comes first in the text is reported. -/
inductive ParseError where
  | lexical (e : LexError)
  | structural (fault : ParseFault) (place : Place)
deriving DecidableEq

def ParseError.message : ParseError → String
  | .lexical e => e.message
  | .structural fault place => place.tell fault.text

/-- A loop whose end is yet to come, and the nodes before it, last first. The nodes are set aside
while the body is read and get the finished loop put on top of them. -/
structure OpenLoop where
  loop : Loop
  before : List Node

/-- Reads nodes up to the end. `outer` are the open loops, innermost first, and `nodes` the nodes
read so far in the innermost one, last first. The lexer is given back also after an error, for a
parser that is asked again; the recursion ends because every token but the last takes characters off
what is left. -/
def parseFrom (l : Lexer) (outer : List OpenLoop) (nodes : List Node) :
    Except ParseError (List Node) × Lexer :=
  match _ : l.next with
  | (.error e, l') => (.error (.lexical e), l')
  | (.ok ⟨.finish, _, place⟩, l') =>
    if outer.isEmpty then (.ok nodes.reverse, l')
    else (.error (.structural (.unclosedLoops outer.length) place), l')
  | (.ok ⟨.text, value, _⟩, l') => parseFrom l' outer (.text value :: nodes)
  | (.ok ⟨.tag, value, place⟩, l') =>
    match Tag.ofChars value.toList, outer with
    | .error fault, _ => (.error (.structural (.tag fault) place), l')
    | .ok (.echo elements), _ => parseFrom l' outer (.echo elements :: nodes)
    | .ok (.loop loop), _ => parseFrom l' (⟨loop, nodes⟩ :: outer) []
    | .ok .close, o :: outer => parseFrom l' outer (.forLoop o.loop nodes.reverse :: o.before)
    | .ok .close, [] => (.error (.structural .unmatchedEnd place), l')
termination_by l.rest.length
decreasing_by all_goals exact Lexer.rest_lt_of_next ‹_› (by simp)

def parse (s : String) : Except ParseError Node :=
  (parseFrom (Lexer.ofText s) [] []).1.map .document

/-! ## Several requests to one parser -/

/-- A parser: its lexer, and the document of the last request that read one. The lexer is not put
back to the start between two requests. -/
structure Parser where
  lexer : Lexer
  document : Option Node

namespace Parser

def ofText (s : String) : Parser := ⟨Lexer.ofText s, none⟩

/-- Reads a document from where the lexer stands. A request that fails leaves the document of an
earlier one in place. -/
def parse (p : Parser) : Except ParseError Node × Parser :=
  match parseFrom p.lexer [] [] with
  | (.ok nodes, lexer) => (.ok (.document nodes), ⟨lexer, some (.document nodes)⟩)
  | (.error e, lexer) => (.error e, { p with lexer })

def documentNode (p : Parser) : Except ParseError Node × Parser :=
  match p.document with
  | some document => (.ok document, p)
  | none => p.parse

end Parser

end Stencil
