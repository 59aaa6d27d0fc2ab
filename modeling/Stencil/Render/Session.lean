import Stencil.Profile
import Stencil.Render.Engine

/-!
# What can be done to a response

A response can be set up, written to and rendered into, in any order and after failures.
`Response.perform` does one such thing; it answers with the response that is left, also when it
fails.
-/

set_option autoImplicit false

namespace Stencil

/-- How an operation on a response fails. -/
inductive SessionFault where
  | sink (fault : SinkFault)
  | template (e : ParseError)
  | run (fault : EvalFault)
  | unfinished
deriving DecidableEq

namespace Response

inductive Op where
  | setEncoding (name : String)
  | setStatusCode (code : Int)
  | setStatusText (text : String)
  | setMimeType (mimeType : String)
  | addCookie (cookie : Cookie)
  | apply (profile : Profile)
  | write (text : String)
  | writeBytes (bytes : List UInt8)
  | render (template : String)

/-- What an operation leaves: its answer, the response, and its log with the newest record first. -/
structure Performed where
  answer : Except SessionFault Unit
  response : Response
  log : List LogRecord

def change (r : Response) : Except SinkFault Response → Performed
  | .ok r' => ⟨.ok (), r', []⟩
  | .error fault => ⟨.error (.sink fault), r, []⟩

def step : Except SinkFault Unit × Response → Performed
  | (answer, r) => ⟨answer.mapError .sink, r, []⟩

/-- Renders a template into a response, which is left as far as the run got. A template that can not
be read does nothing to it. -/
def renderInto (limit : Nat) (r : Response) (template : String) : Performed :=
  match Stencil.render limit template r with
  | .error e => ⟨.error (.template e), r, []⟩
  | .ok (ending, run) =>
    let answer := match ending with
      | .returned => .ok ()
      | .failed fault => .error (.run fault)
      | .unfinished => .error .unfinished
    ⟨answer, run.sink, run.log⟩

def perform (limit : Nat) (r : Response) : Op → Performed
  | .setEncoding name => r.change (r.setEncoding name)
  | .setStatusCode code => r.change (r.setStatusCode code)
  | .setStatusText text => r.change (r.setStatusText text)
  | .setMimeType mimeType => r.change (r.setMimeType mimeType)
  | .addCookie cookie => r.change (r.addCookie cookie)
  | .apply profile => step (profile.applyTo r)
  | .write text => step (r.write text)
  | .writeBytes bytes => step (r.writeBytes bytes)
  | .render template => r.renderInto limit template

end Response

end Stencil
