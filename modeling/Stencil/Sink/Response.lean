import Stencil.Sink
import Stencil.Sink.Cookie
import Stencil.Text.Charset

/-!
# A sink that sends a response

The first write sends a header made of the status, the media type, the encoding and the cookies;
after that none of these can change. The header is sent in the first Latin set, and the body in
the encoding of the response. If the header can not be encoded, nothing is sent; if a text of the
body can not, what was sent before it stays sent.
-/

set_option autoImplicit false

namespace Stencil

structure Response where
  scopes : Scopes
  encoding : Encoding
  statusCode : Int
  statusText : String
  mimeType : String
  cookies : List Cookie
  headerSent : Bool
  stream : Array UInt8

namespace Response

def start (scopes : Scopes) (cookies : List Cookie) : Response where
  scopes := scopes
  encoding := .utf8
  statusCode := 200
  statusText := "OK"
  mimeType := "text/html"
  cookies := cookies
  headerSent := false
  stream := #[]

/-! ## What the header says -/

/-- A response that may still change. Once the header is out, what it said is settled, so every
setter asks this first and is refused from then on. -/
def open? (r : Response) : Except SinkFault Response :=
  if r.headerSent then .error .headerSent else .ok r

theorem open?_of_sent {r : Response} (h : r.headerSent = true) : r.open? = .error .headerSent := by
  rw [open?, if_pos h]

theorem open?_of_unsent {r : Response} (h : r.headerSent = false) : r.open? = .ok r := by
  rw [open?, if_neg (by simp [h])]

theorem eq_of_map_open? {f : Response → Response} {r r' : Response}
    (h : r.open?.map f = .ok r') : r' = f r := by
  cases hr : r.headerSent with
  | true =>
    rw [open?_of_sent hr] at h
    exact absurd h (by simp [Except.map])
  | false =>
    rw [open?_of_unsent hr] at h
    exact (Except.ok.inj h).symm

/-- Sets the encoding by its name. The name is kept as it was given and stands in the header that
way, whatever other name the set may have. -/
def setEncoding (r : Response) (name : String) : Except SinkFault Response := do
  let r ← r.open?
  -- Asked first: such a name is not even looked up.
  if name.toList.contains '\x00' then .error .nullCharacter
  else
    match Encoding.ofName? name with
    | some encoding => .ok { r with encoding }
    | none => .error (.unknownEncoding name)

def setStatusCode (r : Response) (statusCode : Int) : Except SinkFault Response :=
  r.open?.map ({ · with statusCode })

def setStatusText (r : Response) (statusText : String) : Except SinkFault Response :=
  r.open?.map ({ · with statusText })

def setMimeType (r : Response) (mimeType : String) : Except SinkFault Response :=
  r.open?.map ({ · with mimeType })

def addCookie (r : Response) (c : Cookie) : Except SinkFault Response :=
  r.open?.map fun r => { r with cookies := r.cookies ++ [c] }

/-- Makes changes one by one, up to the first that is refused. Those before it stay: nothing is
taken back. -/
def changeAll (r : Response) :
    List (Response → Except SinkFault Response) → Except SinkFault Unit × Response
  | [] => (.ok (), r)
  | change :: rest =>
    match change r with
    | .error fault => (.error fault, r)
    | .ok r => r.changeAll rest

/-! ## The header -/

def contentType (r : Response) : String :=
  "Content-Type: " ++ r.mimeType ++
    (if "text/".toList.isPrefixOf r.mimeType.toList then "; charset=" ++ r.encoding.name else "")

def headerLines (r : Response) : List String :=
  ["HTTP/1.1 " ++ integerText r.statusCode ++ " " ++ r.statusText, r.contentType] ++
    r.cookies.map ("Set-Cookie: " ++ ·.headerValue)

def header (r : Response) : String := String.intercalate "\r\n" r.headerLines ++ "\r\n\r\n"

/-! ## Writing -/

def send (r : Response) (bytes : List UInt8) : Response :=
  { r with stream := r.stream ++ bytes }

/-- Sends the header unless it was sent. It is written in the first Latin set whatever the encoding
of the response, and one that this set can not write leaves the response unsent, to be tried again.
-/
def sendHeader (r : Response) : Except SinkFault Response :=
  if r.headerSent then .ok r
  else
    match Charset.encode? .latin1 r.header with
    | some bytes => .ok { r.send bytes with headerSent := true }
    | none => .error .unencodable

/-- Sends bytes as they are, behind the header. The encoding of the response plays no part in it. -/
def writeBytes (r : Response) (bytes : List UInt8) : Except SinkFault Unit × Response :=
  match r.sendHeader with
  | .ok r => (.ok (), r.send bytes)
  | .error e => (.error e, r)

/-- Sends a text in the encoding of the response. The header goes out first and stays out, also if
the text itself has no bytes; `Charset.mark` is written before each text anew. -/
def write (r : Response) (text : String) : Except SinkFault Unit × Response :=
  match r.sendHeader with
  | .error e => (.error e, r)
  | .ok r =>
    match r.encoding.charset.encode? text with
    | some bytes => (.ok (), r.send bytes)
    -- This is the response behind its header, which is not taken back.
    | none => (.error .unencodable, r)

instance : Sink Response where
  write := Response.write
  setMimeType := Response.setMimeType
  scopes := Response.scopes
  withScopes r scopes := { r with scopes }

end Response

end Stencil
