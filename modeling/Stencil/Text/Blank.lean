/-!
# Blanks

Two classes of characters separate things in a template. *Blanks* are trimmed off the ends of a
template, stand between the words of a tag and may surround a number. *Spaces* are the narrower
class of Unicode separators, without line feeds and tabs: these are skipped between the parts of a
template.
-/

set_option autoImplicit false

namespace Stencil

/-- A Unicode separator: categories `Zs`, `Zl` and `Zp`. -/
def isSpace (c : Char) : Bool :=
  let n := c.toNat
  n == 0x20 || n == 0xa0 || n == 0x1680 || (0x2000 ≤ n && n ≤ 0x200a) || n == 0x2028 ||
    n == 0x2029 || n == 0x202f || n == 0x205f || n == 0x3000

/-- A separator, or a control character that moves to another place on the page. These are cut off
at the ends of a template and part the words of a tag. -/
def isBlank (c : Char) : Bool :=
  isSpace c || (9 ≤ c.toNat && c.toNat ≤ 13) || (0x1c ≤ c.toNat && c.toNat ≤ 0x1f) ||
    c.toNat == 0x85

theorem isBlank_of_isSpace {c : Char} (h : isSpace c = true) : isBlank c = true := by
  simp [isBlank, h]

def trimEnd (cs : List Char) : List Char := (cs.reverse.dropWhile isBlank).reverse

def trim (cs : List Char) : List Char := trimEnd (cs.dropWhile isBlank)

def trimText (s : String) : String := String.ofList (trim s.toList)

end Stencil
