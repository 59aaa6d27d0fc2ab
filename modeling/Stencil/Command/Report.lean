import Stencil.Command.Assignment
import Stencil.Command.Folder
import Stencil.Command.Invocation
import Stencil.Profile
import Stencil.Render.Engine

/-!
# Carrying out an invocation

Rendering takes its settings from a profile, over which the options of the invocation are laid,
and then reads, runs and prints a template. As text it is all or nothing: a template that fails
prints nothing. As a response, what was sent before the failure stays sent.

What a user can mend is reported in one line behind the log, and the program ends with a code; a
number that no double can hold, and field names that cannot be listed, end the program otherwise.
-/

set_option autoImplicit false

namespace Stencil

/-- Why an invocation fails: the fault of the step that failed, with the path if it was a file.
Faults are kept apart by step here, and `isReported` says which of them the user is told. -/
inductive CommandFault where
  | file (p : Path) (fault : FileFault)
  | profile (fault : ProfileFault)
  | assignment (fault : AssignmentFault)
  | template (e : ParseError)
  | sink (fault : SinkFault)
  | run (fault : EvalFault)
deriving DecidableEq

namespace CommandFault

def message : CommandFault → String
  | .file p fault => fault.message p
  | .profile fault => fault.message
  | .assignment fault => fault.message
  | .template e => e.message
  | .sink fault => fault.message
  | .run fault => fault.message

/-- Whether a failure is reported to the user. Those that are not end the program as a defect of its
own would: numbers without a double, and data of a profile that can not be dealt with. -/
def isReported : CommandFault → Bool
  | .profile (.unnamedField _) | .profile .unorderedFields => false
  | .profile (.unfitKey _) | .profile .outOfRange => false
  | .run (.value .tooLarge) => false
  | _ => true

end CommandFault

/-- What is printed. A response is printed as bytes, since its header names the encoding that they
are in. -/
inductive Output where
  | text (s : String)
  | bytes (b : List UInt8)
deriving DecidableEq

inductive Completion where
  | exited (code : Nat)
  | broken (fault : CommandFault)
  /-- The limit of turns was met. -/
  | unfinished
deriving DecidableEq

structure Report where
  completion : Completion
  output : Output
  remarks : String
deriving DecidableEq

/-! ## The remarks -/

def LogRecord.line (r : LogRecord) : String := "[" ++ r.level.name ++ "] " ++ r.message ++ "\n"

/-- The lines of a log whose newest record comes first; details are left out unless they are asked
for. -/
def logText (details : Bool) (log : List LogRecord) : String :=
  String.join ((log.reverse.filter fun r => details || r.level = .error).map LogRecord.line)

/-- The line that reports a failure. Blanks at the end of a message are taken off, so that it stays
one line with one end. -/
def CommandFault.line (fault : CommandFault) : String :=
  String.ofList (trimEnd fault.message.toList) ++ "\n"

namespace Report

def success (details : Bool) (output : Output) (log : List LogRecord) : Report :=
  ⟨.exited 0, output, logText details log⟩

/-- A command that failed. The line about the failure comes behind the log, which is told in either
case. -/
def failure (details : Bool) (output : Output) (log : List LogRecord) (fault : CommandFault) :
    Report :=
  if fault.isReported then ⟨.exited 2, output, logText details log ++ fault.line⟩
  else ⟨.broken fault, output, logText details log⟩

/-- A run that ended. What is printed by one that failed is given apart from what one prints that
returned, since a text is held back then and a response is not. -/
def ofRun (details : Bool) (ending : Ending) (printed left : Output) (log : List LogRecord) :
    Report :=
  match ending with
  | .returned => success details printed log
  | .failed fault => failure details left log (.run fault)
  | .unfinished => ⟨.unfinished, left, logText details log⟩

end Report

/-! ## Rendering -/

/-- The content of a profile's file. A path that leads to no file has none, and that is no fault;
one that leads to a file that can not be read is. -/
def profileContent (look : Look) (p : Path) : Except CommandFault (Option String) :=
  match look p with
  | .ok content => .ok (some content)
  | .error fault => if fault.isAbsence then .ok none else .error (.file p fault)

def given? (option : Option String) : Option String := option.filter (· ≠ "")

/-- The profile that an invocation names. An empty name is as good as none, and without a profile
everything is as in one that says nothing. -/
def namedProfile (look : Look) (config : Option String) (read : Profile.Reader := readYaml) :
    Except CommandFault Profile :=
  match given? config with
  | none => .ok .default
  | some file => do
    let p := Path.ofText file
    let content ← profileContent look p
    (Profile.ofFile p.text content read).mapError .profile

/-- The text of a file. A template that is not there is a fault, while a profile that is not there
is none. -/
def fileText (look : Look) (file : String) : Except CommandFault String :=
  let p := Path.ofText file
  match look p with
  | .ok content => .ok (unifyNewlines content)
  | .error fault => .error (.file p fault)

def fileTree (look : Look) (file : String) : Except CommandFault Node := do
  let text ← fileText look file
  (parse text).mapError .template

/-- What a template is rendered with. The parameters are apart from those of the profile, which stay
as the profile has them. -/
structure Setting where
  profile : Profile
  request : Dictionary String
  persistent : Dictionary String

/-- The profile with the options of an invocation laid over it. Of the request parameters and the
persistent ones the first are read first, so their faults come first. -/
def setting (look : Look) (o : RenderOptions) (read : Profile.Reader := readYaml) :
    Except CommandFault Setting := do
  let profile ← namedProfile look o.config read
  let profile := { profile with encoding := (given? o.encoding).getD profile.encoding }
  let request ← (profile.parameters.assign o.request).mapError .assignment
  let persistent ← (profile.persistentParameters.assign o.persistent).mapError .assignment
  return ⟨profile, request, persistent⟩

/-- Renders a tree as text. What was written before a failure is dropped: nothing is printed then.
-/
def renderAsText (limit : Nat) (details : Bool) (s : Setting) (document : Node) : Report :=
  let sink := s.profile.applyToText (TextSink.start (.start s.request s.persistent) "UTF-8")
  let (ending, run) := (Engine.mk document sink).execute limit [.parsed document.children.length]
  .ofRun details ending (.text run.sink.body) (.text "") run.log

/-- Renders a tree as a response. Bytes that were sent before a failure stay sent, so they are
printed in every case, also if the profile itself is refused by the response. -/
def renderAsResponse (limit : Nat) (details : Bool) (s : Setting) (document : Node) : Report :=
  let log := [.parsed document.children.length]
  match s.profile.applyTo (Response.start (.start s.request s.persistent) []) with
  | (.error fault, r) => .failure details (.bytes r.stream.toList) log (.sink fault)
  | (.ok (), r) =>
    let (ending, run) := (Engine.mk document r).execute limit log
    .ofRun details ending (.bytes run.sink.stream.toList) (.bytes run.sink.stream.toList) run.log

/-! ## Commands -/

namespace Invocation

def paths : Invocation → List Path
  | .render file o => ((given? o.config).toList ++ [file]).map Path.ofText
  | .tree file => [Path.ofText file]

/-- Carries out a command; `details` asks for the whole log. The settings are read before the
template, so if both are bad it is the settings that are reported. -/
def perform (limit : Nat) (look : Look) (details : Bool) (read : Profile.Reader := readYaml) :
    Invocation → Report
  | .tree file =>
    match fileTree look file with
    | .error fault => .failure details (.text "") [] fault
    | .ok document =>
      .success details (.text document.source) [.parsed document.children.length]
  | .render file o =>
    let details := details || o.verbose
    -- Neither of the two does anything, so only the order of the faults is decided here.
    match setting look o read, fileTree look file with
    | .error fault, _ => .failure details (.text "") [] fault
    | .ok _, .error fault => .failure details (.text "") [] fault
    | .ok s, .ok document =>
      if o.http then renderAsResponse limit details s document
      else renderAsText limit details s document

end Invocation

end Stencil
