import Stencil.Number.Literal
import Stencil.Text.Letter
import Stencil.Element

/-!
# The words of a tag

Blanks outside quotes separate the words of a tag's body; a quote opens or closes a quoted stretch
wherever it stands, and belongs to its word. Each word is then one element: by its first character
a variable or a function, else an operator, a quoted string, an integer or a double, the first
that fits.
-/

set_option autoImplicit false

namespace Stencil

/-- Why the body of a tag is refused. -/
inductive BodyFault where
  | unterminatedString (body : String)
  | emptyWord
  | variableName (word : String)
  | noFunctionName
  | functionStart (word : String)
  | functionName (word : String)
  | unrecognized (word : String)
  | emptyEcho
  | loopArity (count : Nat)
  | loopVariable (word : String)
  | loopBound (kind word : String)
deriving DecidableEq

namespace BodyFault

def message : BodyFault → String
  | .unterminatedString body => "Unterminated string in '" ++ body ++ "'"
  | .emptyWord => "Empty token"
  | .variableName word =>
    "Invalid variable name '" ++ word ++ "': symbols must be letters, digits or _"
  | .noFunctionName => "Invalid function name: '@' without a name"
  | .functionStart word =>
    "Invalid function name '" ++ word ++ "': first symbol must be a letter"
  | .functionName word =>
    "Invalid function name '" ++ word ++ "': symbols must be letters, digits or _"
  | .unrecognized word =>
    "Unrecognized token '" ++ word ++ "': neither a number, function, operator, string nor variable"
  | .emptyEcho => "Empty echo tag: at least one element is required"
  | .loopArity count =>
    "Wrong arity of FOR tag: got " ++ toString count ++ " elements, expected 3 or 4"
  | .loopVariable word => "FOR loop variable must be a variable name, got '" ++ word ++ "'"
  | .loopBound kind word =>
    "Loop bound must be an integer constant, got " ++ kind ++ " '" ++ word ++ "'"

end BodyFault

/-! ## Splitting a body -/

/-- Puts a finished word, given backwards, before the others. An empty one is none, so that blanks
in a row part words only once. -/
def consWord (word : List Char) (words : List (List Char)) : List (List Char) :=
  if word.isEmpty then words else word.reverse :: words

/-- Splits what follows the letters of a word (given backwards), inside quotes or outside; `none` if
the last quote is not closed. -/
def splitFrom (quoted : Bool) (word : List Char) : List Char → Option (List (List Char))
  | [] => if quoted then none else some (consWord word [])
  | c :: cs =>
    if c = '"' then splitFrom (!quoted) (c :: word) cs
    else if !quoted && isBlank c then (splitFrom false [] cs).map (consWord word)
    else splitFrom quoted (c :: word) cs

def splitBody (body : List Char) : Except BodyFault (List (List Char)) :=
  match splitFrom false [] body with
  | some words => .ok words
  | none => .error (.unterminatedString (String.ofList (trim body)))

def splitBodyText (body : String) : Except BodyFault (List String) :=
  (splitBody body.toList).map (·.map String.ofList)

/-! ## The element that a word is -/

namespace Element

def functionOfName (name : List Char) : Except BodyFault Element :=
  match name with
  | [] => .error .noFunctionName
  | c :: tail =>
    if !isLetter c then .error (.functionStart (String.ofList ('@' :: name)))
    else if tail.all isNameTail then .ok (.function (String.ofList name))
    else .error (.functionName (String.ofList ('@' :: name)))

/-- What stands between the quotes of a word that starts and ends with one. -/
def quoted? : List Char → Option (List Char)
  | '"' :: rest => if rest.getLast? = some '"' then some rest.dropLast else none
  | _ => none

/-- The number, operator or string that a word is. A word of one character is never a string and a
longer one never an operator, so a sign alone is an operator and one in front of digits belongs to
the number. -/
def constant? (word : List Char) : Option Element :=
  match word with
  -- A string has two quotes, and a double of one character is an integer.
  | [c] =>
    match Operator.ofSymbol? c with
    | some op => some (.operator op)
    | none => (Literal.integer? word).map .integer
  | word =>
    match quoted? word with
    | some s => some (.string (String.ofList s))
    | none =>
      match Literal.integer? word with
      | some n => some (.integer n)
      | none => (Literal.bareDouble? (trim word)).map .double

/-- The element that a word is: a letter in front makes it a variable and the sign `@` a function,
and if the rest does not fit, that is a fault of its own. Only other words are tried as constants.
-/
def ofWord (word : List Char) : Except BodyFault Element :=
  match word with
  | [] => .error .emptyWord
  | c :: tail =>
    if isLetter c then
      if tail.all isNameTail then .ok (.variable (String.ofList word))
      else .error (.variableName (String.ofList word))
    else if c = '@' then functionOfName tail
    else
      match constant? word with
      | some e => .ok e
      | none => .error (.unrecognized (String.ofList word))

end Element

end Stencil
