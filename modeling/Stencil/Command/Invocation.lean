import Stencil.Command.Word

/-!
# Invocations

The words of a command line ask for one command: rendering a template or showing it in its normal
form. Options before the command only ask for help or for the version. Help and version are given
at once, when the words in front of them are in order; what else is wrong with the words is
reported at their end.
-/

set_option autoImplicit false

namespace Stencil

/-- How to render a template. Values are kept as they were given: an empty name of a profile, or an
assignment without a sign, is found out when the command is carried out, and reported then. -/
structure RenderOptions where
  config : Option String
  request : List String
  persistent : List String
  http : Bool
  encoding : Option String
  verbose : Bool
deriving DecidableEq

inductive Invocation where
  | render (file : String) (options : RenderOptions)
  | tree (file : String)
deriving DecidableEq

/-- Why the words lead to no command. Help and version are among the reasons: they are asked for by
an option, and then nothing else in the words counts any more. -/
inductive Dismissal where
  | help
  | version
  | misuse
deriving DecidableEq

namespace Dismissal

def code : Dismissal → Nat
  | .help | .version => 0
  | .misuse => 2

def usage : String :=
  "usage: smartscript [-h] [-v] render FILE [--config PATH] [--param NAME=VALUE]\n" ++
  "         [--pparam NAME=VALUE] [--http] [--encoding ENCODING] [--verbose]\n" ++
  "       smartscript [-h] [-v] tree FILE\n"

def output : Dismissal → String
  | .help => usage
  | .version => "smartscript 0.1.0\n"
  | .misuse => ""

def remarks : Dismissal → String
  | .misuse => usage
  | .help | .version => ""

end Dismissal

namespace Invocation

/-! ## Options -/

/-- The options in front of the command. Only these are known there, so `-v` asks for the version in
front of a command and is unknown behind it. -/
def outerSwitches : List Switch := [.help, .version]

def renderSwitches : List Switch :=
  [.help, .config, .request, .persistent, .http, .encoding, .verbose]

def treeSwitches : List Switch := [.help]

/-- What has been read behind the command. A word of no use does not stop the reading, since an
option behind it may still ask for help. -/
structure Reading where
  file : Option String
  options : RenderOptions
  /-- Whether a word was of no use. -/
  leftover : Bool

namespace Reading

def start : Reading := ⟨none, ⟨none, [], [], false, none, false⟩, false⟩

def plain (r : Reading) (word : String) : Reading :=
  match r.file with
  | none => { r with file := some word }
  | some _ => { r with leftover := true }

/-- Takes the words behind a separator, which may follow the file or stand in front of it. Behind
the file it is allowed only if the file was the word just before it, and nothing follows. -/
def separated (r : Reading) (behindFile : Bool) (words : List String) : Reading :=
  match r.file, words with
  | none, [] => r
  | none, [file] => { r with file := some file }
  | none, file :: _ => { r with file := some file, leftover := true }
  | some _, words => { r with leftover := r.leftover || !(behindFile && words.isEmpty) }

/-- Takes the value of an option. Assignments add up, in the order in which they were given; of
other values the last one counts. -/
def set (r : Reading) (s : Switch) (value : String) : Reading :=
  match s with
  | .config => { r with options.config := some value }
  | .encoding => { r with options.encoding := some value }
  | .request => { r with options.request := r.options.request ++ [value] }
  | .persistent => { r with options.persistent := r.options.persistent ++ [value] }
  | _ => r

/-- How an assignment is written that is a list of no words. It has no equals sign, so it is refused
where assignments are read. -/
def noWords : String := "[]"

/-- Takes a value that is attached to the name of an option. A separator falls away even there, and
leaves no word: that takes a path or an encoding back, and is no assignment. -/
def setAttached (r : Reading) (s : Switch) (value : String) : Reading :=
  if value ≠ Word.separator then r.set s value
  else
    match s with
    | .config => { r with options.config := none }
    | .encoding => { r with options.encoding := none }
    | s => r.set s noWords

/-- Takes an option without a value. Help and version end the reading at once, whatever the words
behind them are. -/
def turnOn (r : Reading) : Switch → Except Dismissal Reading
  | .help => .error .help
  | .version => .error .version
  | .http => .ok { r with options.http := true }
  | .verbose => .ok { r with options.verbose := true }
  | _ => .error .misuse

/-- Whether what stands behind the letter of an option is further letters of options, of which an
equals sign may part it. -/
def areLetters (known : List Switch) (rest : List Char) : Bool :=
  match rest with
  | '=' :: letters => !letters.isEmpty && letters.all isLetter
  | letters => letters.all isLetter
where
  isLetter (c : Char) : Bool := (Word.ofLetter? known c).isSome

def turnOnLettered (r : Reading) (known : List Switch) (s : Switch) (rest : List Char) :
    Except Dismissal Reading :=
  if areLetters known rest then r.turnOn s else .error .misuse

end Reading

/-- Reads the words behind a command; `behindFile` tells whether the word in front was the file. The
recursion is on the words, of which an option with a separate value takes two. -/
def readWords (known : List Switch) (r : Reading) (behindFile : Bool) :
    List String → Except Dismissal Reading
  | [] => .ok r
  | word :: words =>
    if word = Word.separator then .ok (r.separated behindFile words)
    else
      match Word.classify known word with
      -- The first plain word is the file.
      | .plain => readWords known (r.plain word) r.file.isNone words
      | .unknown | .ambiguous => readWords known { r with leftover := true } false words
      | .lettered s rest => do
        let r ← r.turnOnLettered known s rest
        readWords known r false words
      | .named s (some value) =>
        if s.takesValue then readWords known (r.setAttached s value) false words
        else .error .misuse
      | .named s none =>
        if s.takesValue then
          match words with
          | [] => .error .misuse
          | value :: words =>
            if value = Word.separator ∨ Word.classify known value ≠ .plain then .error .misuse
            else readWords known (r.set s value) false words
        else do
          let r ← r.turnOn s
          readWords known r false words

/-! ## Commands -/

/-- Reads the words behind a command, which must name a file and leave nothing over. That is asked
at the end, so help that is asked for behind a useless word is still given; only an ambiguous word
is found out before. -/
def readCommand (known : List Switch) (leftover : Bool) (make : String → RenderOptions → Invocation)
    (words : List String) : Except Dismissal Invocation :=
  if Word.anyAmbiguous known words then .error .misuse
  else do
    let r ← readWords known .start false words
    match r.file with
    | some file => if leftover || r.leftover then .error .misuse else .ok (make file r.options)
    | none => .error .misuse

def ofCommand (leftover : Bool) (command : String) (words : List String) :
    Except Dismissal Invocation :=
  if command = "render" then readCommand renderSwitches leftover .render words
  else if command = "tree" then readCommand treeSwitches leftover (fun file _ => .tree file) words
  else .error .misuse

/-- Reads the options in front of the command, and on. A word of no use in front of the command is
kept in mind and refused at the end, like one behind it. -/
def readOuter (leftover : Bool) : List String → Except Dismissal Invocation
  | [] => .error .misuse
  | word :: words =>
    if word = Word.separator then .error .misuse
    else
      match Word.classify outerSwitches word with
      | .plain => ofCommand leftover word words
      | .unknown | .ambiguous => readOuter true words
      | .lettered s rest => do
        let _ ← Reading.start.turnOnLettered outerSwitches s rest
        readOuter leftover words
      | .named s none => do
        let _ ← Reading.start.turnOn s
        readOuter leftover words
      | .named _ (some _) => .error .misuse

/-- The invocation that words ask for. All words are looked through for ambiguous ones first, also
those behind the command, though its options are not those that are known here. -/
def ofWords (words : List String) : Except Dismissal Invocation :=
  if Word.anyAmbiguous outerSwitches words then .error .misuse else readOuter false words

end Invocation

end Stencil
