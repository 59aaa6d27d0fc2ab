/-!
# Line ends

A file can end its lines with a line feed, a carriage return or both. A text that was read from
one has line feeds only.
-/

set_option autoImplicit false

namespace Stencil

namespace Newline

/-- Turns every line end into a line feed, as files are read: a carriage return is a line end of its
own unless a line feed follows. -/
def unify : List Char → List Char
  | [] => []
  | '\r' :: '\n' :: cs => '\n' :: unify cs
  | '\r' :: cs => '\n' :: unify cs
  | c :: cs => c :: unify cs

end Newline

def unifyNewlines (content : String) : String := String.ofList (Newline.unify content.toList)

end Stencil
