import Stencil.Profile.Raw

/-!
# Cookies

A cookie is sent as one line of a response's header. Every part may be missing, and a domain or
path may be data of any kind, which is then written as its text.
-/

set_option autoImplicit false

namespace Stencil

structure Cookie where
  name : Option String
  value : Option String
  maxAge : Option Int
  domain : Option Raw
  path : Option Raw

namespace Cookie

/-- The parts of a cookie's line. A domain and a path are written if they are given, whatever their
kind, and so is an age, also one of zero or below. -/
def parts (c : Cookie) : List String :=
  let pair := match c.name, c.value with
    | some name, some value => [name ++ "=\"" ++ value ++ "\""]
    | _, _ => []
  pair ++ (c.domain.map ("Domain=" ++ ·.display)).toList ++
    (c.path.map ("Path=" ++ ·.display)).toList ++
    (c.maxAge.map ("Max-Age=" ++ integerText ·)).toList ++ ["HttpOnly"]

def headerValue (c : Cookie) : String := String.intercalate "; " c.parts

end Cookie

end Stencil
