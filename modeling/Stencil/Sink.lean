import Stencil.Scopes

/-!
# Sinks

A running template writes to a sink, which also holds its parameters and the media type of what is
written. There are two sinks: `TextSink` collects the text, and `Response` sends it as bytes
behind a header.
-/

set_option autoImplicit false

namespace Stencil

/-- Why a sink refuses something. All kinds of sinks share these faults, although a sink that
collects text has no header to be closed. -/
inductive SinkFault where
  | headerSent
  | unknownEncoding (name : String)
  /-- The name of an encoding holds the null character, which stops even the look-up of the name. -/
  | nullCharacter
  | unencodable
  | undecodable
deriving DecidableEq

def SinkFault.message : SinkFault → String
  | .headerSent => "Can not change the value after header was generated"
  | .unknownEncoding name => "unknown encoding: " ++ name
  | .nullCharacter => "embedded null character"
  | .unencodable => "text has a character that the encoding does not have"
  | .undecodable => "bytes are no text in the encoding"

/-- What a running template needs of a sink. Writing can fail after a part has been written, so it
leaves a sink either way. -/
class Sink (σ : Type) where
  write : σ → String → Except SinkFault Unit × σ
  setMimeType : σ → String → Except SinkFault σ
  scopes : σ → Scopes
  withScopes : σ → Scopes → σ

end Stencil
