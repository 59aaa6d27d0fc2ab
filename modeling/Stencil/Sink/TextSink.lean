import Stencil.Sink
import Stencil.Text.Charset

/-!
# A sink that collects text

Nothing is sent, so nothing is ever too late: the media type can change at any time. The name of the
encoding counts only when bytes are written, and is not looked up before.
-/

set_option autoImplicit false

namespace Stencil

structure TextSink where
  scopes : Scopes
  encoding : String
  mimeType : String
  body : String
deriving DecidableEq

namespace TextSink

def start (scopes : Scopes) (encoding : String) : TextSink := ⟨scopes, encoding, "text/html", ""⟩

def write (s : TextSink) (text : String) : TextSink := { s with body := s.body ++ text }

/-- Writes the text of bytes. No bytes are the empty text in every encoding, even in an unknown one,
but not under a name that no encoding can have. -/
def writeBytes (s : TextSink) (bytes : List UInt8) : Except SinkFault TextSink :=
  if s.encoding.toList.contains '\x00' then .error .nullCharacter
  else if bytes.isEmpty then .ok s
  else
    match Charset.ofName? s.encoding with
    | none => .error (.unknownEncoding s.encoding)
    | some charset =>
      match charset.decode? bytes with
      | none => .error .undecodable
      | some text => .ok (s.write text)

instance : Sink TextSink where
  write s text := (.ok (), s.write text)
  setMimeType s mimeType := .ok { s with mimeType }
  scopes := TextSink.scopes
  withScopes s scopes := { s with scopes }

end TextSink

end Stencil
