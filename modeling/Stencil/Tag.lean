import Stencil.Tag.Word
import Stencil.Node

/-!
# Tags

A tag is an echo of elements, the head of a loop, or the end of a loop. Which one it is shows in
what stands behind its opening dollar sign: an equals sign, or one of the words `FOR` and `END` in
any case. Blanks may stand around the braces' dollar signs and the words. The body of a tag ends
at its last dollar sign, so a string in it may hold dollar signs.
-/

set_option autoImplicit false

namespace Stencil

inductive Tag where
  | close
  | echo (elements : List Element)
  | loop (head : Loop)
deriving DecidableEq

/-- Why a tag is refused. -/
inductive TagFault where
  | unknown (tag : String)
  | body (fault : BodyFault)
deriving DecidableEq

def TagFault.message : TagFault → String
  | .unknown tag => "Unknown tag '" ++ tag ++ "'"
  | .body fault => "Problem during parsing: " ++ fault.message

/-! ## The shape of a tag -/

/-- The form of a tag, with its body still as characters. The form is settled before the body is
looked at, so a tag with a faulty body is never taken for one of another form. -/
inductive TagShape where
  | close
  | echo (body : List Char)
  | loop (body : List Char)
deriving DecidableEq

namespace TagShape

def inside? : List Char → Option (List Char)
  | '{' :: cs =>
    match cs.dropWhile isBlank with
    | '$' :: rest => some (rest.dropWhile isBlank)
    | _ => none
  | _ => none

/-- What stands before the closing dollar sign, which only blanks and the brace follow. It is the
last sign of the tag, so a body may hold others. -/
def body? (cs : List Char) : Option (List Char) :=
  -- From behind, the first sign that is met is the last one of the tag.
  match cs.reverse with
  | '}' :: rest =>
    match rest.dropWhile isBlank with
    | '$' :: back => some back.reverse
    | _ => none
  | _ => none

def afterWord? : List Char → List Char → Option (List Char)
  | [], cs => some cs
  | _ :: _, [] => none
  | w :: ws, c :: cs => if c.toUpper = w then afterWord? ws cs else none

def close? (cs : List Char) : Option TagShape := do
  let body ← body? (← afterWord? ['E', 'N', 'D'] cs)
  if body.all isBlank then some .close else none

def echo? : List Char → Option TagShape
  | '=' :: cs => (body? cs).map .echo
  | _ => none

/-- The body of a loop. The word `FOR` and the body must be set apart by a blank, while an echo
needs none behind its sign. -/
def loop? (cs : List Char) : Option TagShape := do
  let body ← body? (← afterWord? ['F', 'O', 'R'] cs)
  if body.head?.all isBlank then some (.loop body) else none

/-- The shape of a tag; the three shapes exclude one another. -/
def ofChars? (tag : List Char) : Option TagShape := do
  let cs ← inside? tag
  (close? cs).or ((echo? cs).or (loop? cs))

end TagShape

/-! ## The content of a tag -/

namespace Tag

def echoElements (body : List Char) : Except BodyFault (List Element) := do
  let elements ← (← splitBody body).mapM Element.ofWord
  if elements.isEmpty then .error .emptyEcho else .ok elements

def loopVariable (word : List Char) : Except BodyFault String := do
  match ← Element.ofWord word with
  | .variable name => .ok name
  | _ => .error (.loopVariable (String.ofList word))

/-- A word that is a bound or the step of a loop. It must be an integer: neither a double nor a text
that reads as a number will do, although an echo takes all three. -/
def loopBound (word : List Char) : Except BodyFault Int := do
  match ← Element.ofWord word with
  | .integer n => .ok n
  | e => .error (.loopBound e.kindName (String.ofList word))

/-- The head of a loop: a variable, two bounds and perhaps a step. The number of words is looked at
before any of them, and they are read from left to right. -/
def loopHead (body : List Char) : Except BodyFault Loop := do
  match ← splitBody body with
  | [name, start, stop] =>
    let name ← loopVariable name
    let start ← loopBound start
    let stop ← loopBound stop
    .ok ⟨name, start, stop, none⟩
  | [name, start, stop, step] =>
    let name ← loopVariable name
    let start ← loopBound start
    let stop ← loopBound stop
    let step ← loopBound step
    .ok ⟨name, start, stop, some step⟩
  | words => .error (.loopArity words.length)

/-- Reads a tag from its braces and what is between them. The parser gets it from the lexer as it is
written, so that a report can show it. -/
def ofChars (tag : List Char) : Except TagFault Tag :=
  match TagShape.ofChars? tag with
  | none => .error (.unknown (String.ofList tag))
  | some .close => .ok .close
  | some (.echo body) => ((echoElements body).map .echo).mapError .body
  | some (.loop body) => ((loopHead body).map .loop).mapError .body

end Tag

end Stencil
