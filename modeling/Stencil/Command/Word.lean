import Stencil.Text.Letter

/-!
# Words of a command line

A word is plain, or it asks for an option by its name or its letter. A name can be cut short as
long as no other option starts the same way, and a value can be attached to it behind an equals
sign. Behind a letter further letters can stand. A dash alone, a negative number and what has a
space in it are plain, unless they ask for an option.
-/

set_option autoImplicit false

namespace Stencil

inductive Switch where
  | help
  | version
  | config
  | request
  | persistent
  | http
  | encoding
  | verbose
deriving DecidableEq

namespace Switch

def longName : Switch → String
  | .help => "--help"
  | .version => "--version"
  | .config => "--config"
  | .request => "--param"
  | .persistent => "--pparam"
  | .http => "--http"
  | .encoding => "--encoding"
  | .verbose => "--verbose"

def letter? : Switch → Option Char
  | .help => some 'h'
  | .version => some 'v'
  | _ => none

def takesValue : Switch → Bool
  | .config | .request | .persistent | .encoding => true
  | .help | .version | .http | .verbose => false

end Switch

/-- What a word is to those who know some options. The same word can be plain to one command and an
option to another, so the options are always given along. -/
inductive Word where
  | plain
  /-- An option by its name, and the value that is attached to it. -/
  | named (s : Switch) (attached : Option String)
  /-- An option by its letter, and what stands behind the letter. -/
  | lettered (s : Switch) (rest : List Char)
  | unknown
  | ambiguous
deriving DecidableEq

namespace Word

def separator : String := "--"

/-- Splits a text at its first equals sign. Without one there is no value at all, which is not the
same as an empty one. -/
def splitEquals (cs : List Char) : List Char × Option (List Char) :=
  match cs.dropWhile (· ≠ '=') with
  | [] => (cs, none)
  | _ :: rest => (cs.takeWhile (· ≠ '='), some rest)

def ofLetter? (known : List Switch) (c : Char) : Option Switch :=
  known.find? fun s => s.letter? = some c

/-- A negative number in the digits of any script, with a fraction or without; a line feed may
follow it. Such a word starts with a dash and is meant as a value all the same. -/
def isNegativeNumber (cs : List Char) : Bool :=
  match cs with
  | '-' :: rest =>
    let rest := if rest.getLast? = some '\n' then rest.dropLast else rest
    let whole := rest.takeWhile isDecimalDigit
    match rest.dropWhile isDecimalDigit with
    | [] => !whole.isEmpty
    | '.' :: fraction => !fraction.isEmpty && fraction.all isDecimalDigit
    | _ => false
  | _ => false

def ofRest (cs : List Char) : Word :=
  if isNegativeNumber cs || cs.contains ' ' then .plain else .unknown

def startingWith (known : List Switch) (name : List Char) : List Switch :=
  known.filter fun s => name.isPrefixOf s.longName.toList

/-- What a word with two dashes in front is. A name may be cut short, so it asks for the one option
that starts with it; one that several start with is refused, and not taken for the shortest of them.
-/
def ofNamed (known : List Switch) (cs : List Char) : Word :=
  let (name, attached) := splitEquals cs
  match startingWith known name with
  | [] => ofRest cs
  | [s] => .named s (attached.map String.ofList)
  | _ => .ambiguous

def ofLettered (known : List Switch) (c : Char) (rest : List Char) : Word :=
  match ofLetter? known c with
  | some s => .lettered s rest
  | none => ofRest ('-' :: c :: rest)

/-- What a word is to those who know some options. The same word can be plain to one command and an
option to another, so the options are always given along. -/
def classify (known : List Switch) (word : String) : Word :=
  match word.toList with
  | '-' :: '-' :: rest => ofNamed known ('-' :: '-' :: rest)
  | '-' :: c :: rest => ofLettered known c rest
  | _ => .plain

/-- Whether a word asks for one of several options and does not say for which. This is found out
before any option acts, even help. Behind a separator no word asks for an option. -/
def anyAmbiguous (known : List Switch) (words : List String) : Bool :=
  (words.takeWhile (· ≠ separator)).any fun w => classify known w = .ambiguous

end Word

end Stencil
