import Stencil.Profile.Yaml.Data
import Stencil.Scopes
import Stencil.Sink.Response
import Stencil.Sink.TextSink
import Stencil.Text.Newline

/-!
# Profiles

A profile says what a response's header holds and which parameters a template starts with. It is
read from a mapping: unknown fields are reported first, then the fields are checked in the order
of `Profile.ofEntries`, and the first one that does not fit is reported.
-/

set_option autoImplicit false

namespace Stencil

structure Profile where
  encoding : String
  mimeType : String
  statusCode : Int
  statusText : String
  parameters : Dictionary String
  persistentParameters : Dictionary String
  cookies : List Cookie

/-- Why data is no profile. Most of these are reports of the profile's own, which name the fields,
the path or the file that they are about; the others are what reading a file and naming unknown
fields can run into before there is a report. -/
inductive ProfileFault where
  | unknownFields (names : List String)
  /-- Unknown fields of which the first is no text but data of another kind. -/
  | unnamedField (kind : String)
  /-- Unknown fields whose kinds have no common order. -/
  | unorderedFields
  | unfit (path expected kind : String)
  | incompleteCookie (path : String)
  | notMapping (file : String)
  | malformed (file : String)
  /-- A scalar of the file looks like data of some kind and is none. -/
  | unfitScalar (reason : String)
  /-- A row that is a key of the file holds data of a kind that can not be part of a key. -/
  | unfitKey (kind : String)
  /-- A number of the file lies beyond what there is. -/
  | outOfRange
deriving DecidableEq

def ProfileFault.message : ProfileFault → String
  | .unknownFields names => "Unknown config field(s): " ++ String.intercalate ", " names
  | .unnamedField kind => "sequence item 0: expected str instance, " ++ kind ++ " found"
  | .unorderedFields => "unknown config fields have no common order"
  | .unfit path expected kind => path ++ ": expected " ++ expected ++ ", got " ++ kind
  | .incompleteCookie path => path ++ ": 'name' and 'value' are required"
  | .notMapping file => "YAML must be a mapping: " ++ file
  | .malformed file => "Invalid YAML in " ++ file
  | .unfitScalar reason => reason
  | .unfitKey kind => "unhashable type: '" ++ kind ++ "'"
  | .outOfRange => "a number is out of range"

namespace Profile

/-- The profile that nothing is said in. What a file or a mapping leaves out is taken from here,
field by field. -/
def default : Profile := ⟨"UTF-8", "text/html", 200, "OK", .empty, .empty, []⟩

def fields : List String :=
  ["encoding", "mime_type", "status_code", "status_text", "parameters", "persistent_parameters",
    "cookies"]

/-! ## Single fields -/

/-- The report that data at a path is of another kind than it should be. All checks of a kind make
it, so that a report always has the path, what was due there, and what was found. -/
def unfit {α : Type} (path expected : String) (r : Raw) : Except ProfileFault α :=
  .error (.unfit path expected r.kindName)

/-- A field that is a text. Only a field that is left out has its default; one that is given as
nothing is of the wrong kind like any other. -/
def textField (entries : List (Raw × Raw)) (name default : String) : Except ProfileFault String :=
  match Raw.find? entries name with
  | none => .ok default
  | some (.text s) => .ok s
  | some r => unfit name "string" r

/-- A field that is a whole number. A truth value is not one here, although it counts as one among
keys. -/
def integerField (entries : List (Raw × Raw)) (name : String) (default : Int) :
    Except ProfileFault Int :=
  match Raw.find? entries name with
  | none => .ok default
  | some (.integer n) => .ok n
  | some r => unfit name "integer" r

/-- The text that a scalar is taken for: parameters and cookies hold texts, but a file may well give
them as numbers or truth values. -/
def scalarText (path : String) : Raw → Except ProfileFault String
  | .bool b => .ok (if b then "true" else "false")
  | .text s => .ok s
  | .integer n => .ok (integerText n)
  | .double x => .ok (DoubleLayout.profile.write x)
  | r => unfit path "scalar value" r

/-- The entries of a mapping as texts under texts. Keys need not be texts and are taken as they are
displayed, so two of them can meet; `Dictionary.ofEntries` then keeps the last. -/
def textEntries (name : String) : List (Raw × Raw) → Except ProfileFault (List (String × String))
  | [] => .ok []
  | (k, v) :: rest => do
    let value ← scalarText (name ++ "." ++ k.display) v
    return (k.display, value) :: (← textEntries name rest)

/-- A field that is a mapping to scalars. Everything that counts as not given stands for an empty
mapping here, be it an empty list or the number zero. -/
def textMap (entries : List (Raw × Raw)) (name : String) :
    Except ProfileFault (Dictionary String) :=
  match (Raw.find? entries name).getD .null with
  | .mapping fields => (textEntries name fields).map Dictionary.ofEntries
  | r => if r.isVoid then .ok .empty else unfit name "mapping" r

/-- The age that a cookie may have. Of the three parts that a cookie need not have, this is the only
one whose kind is checked; see `uncheckedPart`. -/
def maxAge (path : String) (entries : List (Raw × Raw)) : Except ProfileFault (Option Int) :=
  match Raw.find? entries "max_age" with
  | none | some .null => .ok none
  | some (.integer n) => .ok (some n)
  | some r => unfit (path ++ ".max_age") "integer" r

/-- A part of a cookie whose kind is not checked. It is kept as data and shows only in the header,
where it is displayed whatever it is. -/
def uncheckedPart (entries : List (Raw × Raw)) (name : String) : Option Raw :=
  match Raw.find? entries name with
  | some .null => none
  | r => r

/-- The cookie of a mapping. That name and value are there is asked first, before the kind of any
part. -/
def cookie (path : String) : Raw → Except ProfileFault Cookie
  | .mapping entries =>
    match Raw.find? entries "name", Raw.find? entries "value" with
    | some name, some value => do
      -- The order of these three decides what a cookie with several faults is reported for.
      let age ← maxAge path entries
      let name ← scalarText (path ++ ".name") name
      let value ← scalarText (path ++ ".value") value
      .ok ⟨some name, some value, age, uncheckedPart entries "domain", uncheckedPart entries "path"⟩
    | _, _ => .error (.incompleteCookie path)
  | r => unfit path "mapping" r

/-- The cookies of a list. The index is that of the first of them, since reports name a cookie by
where it stands. -/
def cookiesFrom (index : Nat) : List Raw → Except ProfileFault (List Cookie)
  | [] => .ok []
  | r :: rest => do
    let c ← cookie ("cookies[" ++ toString index ++ "]") r
    return c :: (← cookiesFrom (index + 1) rest)

def cookieList (entries : List (Raw × Raw)) : Except ProfileFault (List Cookie) :=
  match (Raw.find? entries "cookies").getD .null with
  | .list items => cookiesFrom 0 items
  | r => if r.isVoid then .ok [] else unfit "cookies" "list" r

/-! ## The whole profile -/

/-- A key that names no field. A key of another kind than text never does, and so is always unknown.
-/
def isUnknown : Raw → Bool
  | .text s => !fields.contains s
  | _ => true

/-- The first one of several keys in their order. A single key needs none; among several there is no
first one as soon as two that are compared have no order. -/
def leastKey? : List Raw → Option Raw
  | [] => none
  | [r] => some r
  | r :: rs => do
    let s ← leastKey? rs
    some (if ← s.before? r then s else r)

/-- The report about unknown fields, if there are some. It lists their names in order, which it can
do only as long as all of them are texts; with other keys among them the fault is that they can not
be ordered or not be joined. -/
def unknownFields (entries : List (Raw × Raw)) : Except ProfileFault Unit :=
  let unknown := (entries.map (·.1)).filter isUnknown
  let names := unknown.filterMap fun | .text s => some s | _ => none
  if unknown.isEmpty then .ok ()
  else if names.length = unknown.length then
    .error (.unknownFields (names.mergeSort (fun a b => decide (a ≤ b))))
  else
    match leastKey? unknown with
    | some r => .error (.unnamedField r.fullKindName)
    | none => .error .unorderedFields

/-- The profile of a mapping's entries. Unknown fields are reported before anything is read, and the
fields are read in this order, which decides the report of a mapping that is wrong in several
places. -/
def ofEntries (entries : List (Raw × Raw)) : Except ProfileFault Profile := do
  unknownFields entries
  let encoding ← textField entries "encoding" default.encoding
  let mimeType ← textField entries "mime_type" default.mimeType
  let statusText ← textField entries "status_text" default.statusText
  let statusCode ← integerField entries "status_code" default.statusCode
  let parameters ← textMap entries "parameters"
  let persistentParameters ← textMap entries "persistent_parameters"
  let cookies ← cookieList entries
  .ok ⟨encoding, mimeType, statusCode, statusText, parameters, persistentParameters, cookies⟩

/-- The profile of a file's content, whose name reports give. A file without content leaves
everything as it is by default, and so does content that counts as not given. -/
def ofContent (file : String) (content : Raw) : Except ProfileFault Profile :=
  match content with
  | .mapping entries => ofEntries entries
  | r => if r.isVoid then .ok default else .error (.notMapping file)

/-- What reads the data of a file. How it does that is no business of a profile, which only tells
the ways to fail apart; so whatever holds of profiles for every reader says nothing about how a
file's text is laid out. -/
abbrev Reader := String → Except YamlFault Raw

/-- The profile of a file whose content is given if it is there; one that is not there leaves
everything as it is by default. -/
def ofFile (file : String) (content : Option String) (read : Reader := readYaml) :
    Except ProfileFault Profile :=
  match content with
  | none => .ok default
  | some content =>
    match read (unifyNewlines content) with
    | .error .malformed => .error (.malformed file)
    | .error (.unfit reason) => .error (.unfitScalar reason)
    | .error (.unfitKey kind) => .error (.unfitKey kind)
    | .error .outOfRange => .error .outOfRange
    | .ok raw => ofContent file raw

/-- Sets up a sink that collects text. It has no status and no cookies, and takes any name for its
encoding, so nothing is refused. -/
def applyToText (p : Profile) (s : TextSink) : TextSink :=
  { s with encoding := p.encoding, mimeType := p.mimeType }

/-- What a profile sets in a response. The order shows when one of them is refused, since those
before it stay. -/
def changes (p : Profile) : List (Response → Except SinkFault Response) :=
  [(·.setEncoding p.encoding), (·.setMimeType p.mimeType), (·.setStatusCode p.statusCode),
    (·.setStatusText p.statusText)] ++ p.cookies.map fun c r => r.addCookie c

/-- Sets what a response's header holds, up to the first part that the response refuses. What was
set before that part stays. -/
def applyTo (p : Profile) (r : Response) : Except SinkFault Unit × Response :=
  r.changeAll p.changes

end Profile

end Stencil
