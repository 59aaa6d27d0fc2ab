/-!
# Character sets

A character set turns text into bytes, character by character, and reads bytes back. Neither
direction guesses: a character without bytes and bytes without a character are refused.

`Charset.utf16` marks the byte order in front of everything that it writes, even in front of
nothing, so writing in pieces leaves marks in between.

These are the sets that templates are served in, and not all that have a name. What is said here
is about these sets; every other name is one that `Charset.ofName?` does not know, so an encoding
by that name is refused.
-/

set_option autoImplicit false

namespace Stencil

/-- The character sets that there are here: UTF-8, UTF-16 in three forms, and three sets of single
bytes. Many more have a name, such as code pages, the multi-byte sets of East Asia and further
formats of Unicode. These are left out for their tables and not by a rule, so what is proved of
every set here says nothing about them; to take one in is to give it a case in each function below.
-/
inductive Charset where
  | utf8
  | ascii
  | latin1
  | latin2
  | utf16
  | utf16le
  | utf16be
deriving DecidableEq

namespace Charset

/-! ## Single characters -/

/-- The code points of the bytes from `0xa0` on in the second Latin set. Below that byte the two
Latin sets agree. -/
def latin2Upper : List Nat :=
  [160, 260, 728, 321, 164, 317, 346, 167, 168, 352, 350, 356, 377, 173, 381, 379,
    176, 261, 731, 322, 180, 318, 347, 711, 184, 353, 351, 357, 378, 733, 382, 380,
    340, 193, 194, 258, 196, 313, 262, 199, 268, 201, 280, 203, 282, 205, 206, 270,
    272, 323, 327, 211, 212, 336, 214, 215, 344, 366, 218, 368, 220, 221, 354, 223,
    341, 225, 226, 259, 228, 314, 263, 231, 269, 233, 281, 235, 283, 237, 238, 271,
    273, 324, 328, 243, 244, 337, 246, 247, 345, 367, 250, 369, 252, 253, 355, 729]

def byteBelow? (limit : Nat) (c : Char) : Option (List UInt8) :=
  if c.toNat < limit then some [UInt8.ofNat c.toNat] else none

def latin2Byte? (c : Char) : Option (List UInt8) :=
  if c.toNat < 0xa0 then some [UInt8.ofNat c.toNat]
  else (latin2Upper.idxOf? c.toNat).map fun i => [UInt8.ofNat (0xa0 + i)]

/-- The units of sixteen bits of a character, two of them from `0x10000` on. -/
def units16 (c : Char) : List Nat :=
  if c.toNat < 0x10000 then [c.toNat]
  else [0xd800 + (c.toNat - 0x10000) / 0x400, 0xdc00 + (c.toNat - 0x10000) % 0x400]

def low (unit : Nat) : UInt8 := UInt8.ofNat (unit % 256)

def high (unit : Nat) : UInt8 := UInt8.ofNat (unit / 256)

def encodeLittle (c : Char) : List UInt8 := (units16 c).flatMap fun u => [low u, high u]

def encodeBig (c : Char) : List UInt8 := (units16 c).flatMap fun u => [high u, low u]

/-- The bytes of a character. In `utf16` they are little endian: the mark in front of a text says
so, and is not written here. -/
def encodeChar? : Charset → Char → Option (List UInt8)
  | .utf8, c => some (String.utf8EncodeChar c)
  | .ascii, c => byteBelow? 0x80 c
  | .latin1, c => byteBelow? 0x100 c
  | .latin2, c => latin2Byte? c
  | .utf16, c => some (encodeLittle c)
  | .utf16le, c => some (encodeLittle c)
  | .utf16be, c => some (encodeBig c)

/-! ## Texts -/

/-- What stands in front of everything written at once. It depends on the set alone, so a text
written in two pieces has it twice and is no longer what it would be in one. -/
def mark : Charset → List UInt8
  | .utf16 => [0xff, 0xfe]
  | _ => []

def encodeChars? (s : Charset) : List Char → Option (List UInt8)
  | [] => some []
  | c :: cs => do
    let bytes ← s.encodeChar? c
    return bytes ++ (← encodeChars? s cs)

/-- The bytes of a text. There are none as soon as one of its characters has none: nothing is
written in its place. -/
def encode? (s : Charset) (text : String) : Option (List UInt8) :=
  (s.encodeChars? text.toList).map (s.mark ++ ·)

/-- Joins bytes into units of sixteen bits; an odd byte is refused. -/
def joinUnits? (join : UInt8 → UInt8 → Nat) : List UInt8 → Option (List Nat)
  | [] => some []
  | [_] => none
  | a :: b :: rest => (joinUnits? join rest).map (join a b :: ·)

def isHighSurrogate (u : Nat) : Bool := 0xd800 ≤ u && u < 0xdc00

def isLowSurrogate (u : Nat) : Bool := 0xdc00 ≤ u && u < 0xe000

/-- Reads units of sixteen bits; surrogates must come in pairs. -/
def decodeUnits? : List Nat → Option (List Char)
  | [] => some []
  | [u] => if isHighSurrogate u || isLowSurrogate u then none else some [Char.ofNat u]
  | u :: v :: rest =>
    if isHighSurrogate u then
      if isLowSurrogate v then
        (decodeUnits? rest).map (Char.ofNat (0x10000 + (u - 0xd800) * 0x400 + (v - 0xdc00)) :: ·)
      else none
    else if isLowSurrogate u then none
    else (decodeUnits? (v :: rest)).map (Char.ofNat u :: ·)

def decodeLittle? (bytes : List UInt8) : Option (List Char) :=
  (joinUnits? (fun a b => a.toNat + 256 * b.toNat) bytes).bind decodeUnits?

def decodeBig? (bytes : List UInt8) : Option (List Char) :=
  (joinUnits? (fun a b => 256 * a.toNat + b.toNat) bytes).bind decodeUnits?

def decodeByte? (limit : Nat) (b : UInt8) : Option Char :=
  if b.toNat < limit then some (Char.ofNat b.toNat) else none

def latin2Char? (b : UInt8) : Option Char :=
  if b.toNat < 0xa0 then some (Char.ofNat b.toNat)
  else (latin2Upper[b.toNat - 0xa0]?).map Char.ofNat

/-- The characters of bytes. A byte order mark in front decides the order of `utf16`, which is
little endian without one. -/
def decodeChars? : Charset → List UInt8 → Option (List Char)
  | .utf8, bytes => (ByteArray.mk bytes.toArray).utf8Decode?.map Array.toList
  | .ascii, bytes => bytes.mapM (decodeByte? 0x80)
  | .latin1, bytes => bytes.mapM (decodeByte? 0x100)
  | .latin2, bytes => bytes.mapM latin2Char?
  | .utf16, bytes =>
    match bytes with
    | 0xff :: 0xfe :: rest => decodeLittle? rest
    | 0xfe :: 0xff :: rest => decodeBig? rest
    | _ => decodeLittle? bytes
  | .utf16le, bytes => decodeLittle? bytes
  | .utf16be, bytes => decodeBig? bytes

def decode? (s : Charset) (bytes : List UInt8) : Option String :=
  (s.decodeChars? bytes).map String.ofList

/-! ## Names -/

/-- The name of a set in the form that `normalize` gives, in which names are compared. -/
def key : Charset → String
  | .utf8 => "utf_8"
  | .ascii => "ascii"
  | .latin1 => "latin_1"
  | .latin2 => "iso8859_2"
  | .utf16 => "utf_16"
  | .utf16le => "utf_16_le"
  | .utf16be => "utf_16_be"

/-- Further names of a set in the same form. A few keep a point, which `normalize` leaves in place.
-/
def aliases : Charset → List String
  | .utf8 => ["u8", "utf", "utf8", "utf8_ucs2", "utf8_ucs4", "cp65001"]
  | .ascii =>
    ["646", "ansi_x3.4_1968", "ansi_x3_4_1968", "ansi_x3.4_1986", "cp367", "csascii", "ibm367",
      "iso646_us", "iso_646.irv_1991", "iso_ir_6", "us", "us_ascii"]
  | .latin1 =>
    ["8859", "cp819", "csisolatin1", "ibm819", "iso8859", "iso8859_1", "iso_8859_1",
      "iso_8859_1_1987", "iso_ir_100", "l1", "latin", "latin1"]
  | .latin2 => ["csisolatin2", "iso_8859_2", "iso_8859_2_1987", "iso_ir_101", "l2", "latin2"]
  | .utf16 => ["u16", "utf16"]
  | .utf16le => ["unicodelittleunmarked", "utf_16le"]
  | .utf16be => ["unicodebigunmarked", "utf_16be"]

/-- The sets that a name is looked up in. This is the type's own list, not one of all encodings that
can be asked for by name: the name of a further one counts as unknown. -/
def all : List Charset := [.utf8, .ascii, .latin1, .latin2, .utf16, .utf16le, .utf16be]

def isNameChar (c : Char) : Bool := c.isAlphanum || c == '.'

/-- The parts of a name in lower case, with one underscore between two parts. -/
def normalizeFrom (apart : Bool) : List Char → List Char
  | [] => []
  | c :: cs =>
    if isNameChar c then
      if apart then '_' :: c.toLower :: normalizeFrom false cs
      else c.toLower :: normalizeFrom false cs
    else normalizeFrom true cs

def normalize (name : String) : String :=
  String.ofList (normalizeFrom false (name.toList.dropWhile (!isNameChar ·)))

/-- The set of a name, without regard to case and to what sets its parts apart. A point may stand
for an underscore in the further names. -/
def ofName? (name : String) : Option Charset :=
  let n := normalize name
  let undotted := String.ofList (n.toList.map fun c => if c == '.' then '_' else c)
  all.find? fun s => s.key == n || s.aliases.contains n || s.aliases.contains undotted

end Charset

/-- A character set under the name that it was asked for by. -/
structure Encoding where
  name : String
  charset : Charset
deriving DecidableEq

namespace Encoding

def ofName? (name : String) : Option Encoding := (Charset.ofName? name).map (⟨name, ·⟩)

def utf8 : Encoding := ⟨"UTF-8", .utf8⟩

end Encoding

end Stencil
