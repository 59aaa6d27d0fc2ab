import Stencil.Profile.Yaml.Literal
import Stencil.Profile.Yaml.Plain
import Stencil.Profile.Yaml.Quoted
import Stencil.Profile.Yaml.Token

/-!
# Reading tokens

Tokens are read from left to right, but whether something is a key shows only at the colon behind
it. What may be a key is therefore remembered, and if the colon comes, the token for the key is put
in front of it. A key must stand on one line with its colon, and start at most 1024 characters in
front of it.

A token counts as given when nothing can be put in front of it any more. If a file cannot be read
to its end, the tokens that were given up to there come with the reason.
-/

set_option autoImplicit false

namespace Stencil

namespace Yaml

/-- A place where a key may start. -/
structure Candidate where
  /-- How many tokens stand in front of it. -/
  number : Nat
  /-- Whether the block goes on only with a key. -/
  required : Bool
  cursor : Cursor

inductive Bracket where
  | square
  | curly
deriving DecidableEq

/-- What has been read of a file. -/
structure Stream where
  cursor : Cursor
  /-- The tokens, the newest first, and their number. -/
  made : List Token
  count : Nat
  /-- The columns of the blocks that are open, the innermost first. -/
  indents : List Nat
  keyAllowed : Bool
  /-- What may be a key within the innermost brackets. -/
  candidate : Option Candidate
  /-- The brackets that are open, the innermost first, with what may be a key around them. -/
  outer : List (Bracket × Option Candidate)

namespace Stream

def ofChars (cs : List Char) : Stream :=
  ⟨.ofChars cs, [], 0, [], true, none, []⟩

def inFlow (s : Stream) : Bool := !s.outer.isEmpty

def add (s : Stream) (t : Token) : Stream := { s with made := t :: s.made, count := s.count + 1 }

def addTo (s : Stream) (t : Token) (c : Cursor) : Stream := { s.add t with cursor := c }

/-- Puts tokens, the last one first, in front of all but the first `number` tokens. -/
def insert (s : Stream) (number : Nat) (ts : List Token) : Stream :=
  let later := s.count - number
  { s with
    made := s.made.take later ++ ts ++ s.made.drop later
    count := s.count + ts.length }

/-- The tokens that are given, in order. A token behind a place where a key may still start is held
back, since the token for that key would stand in front of it. -/
def given (s : Stream) : List Token :=
  let pending := (s.candidate :: s.outer.map (·.2)).filterMap (·.map (·.number))
  (s.made.drop (s.count - pending.foldl min s.count)).reverse

/-! ## Keys -/

/-- The greatest distance between the start of a key and its colon. A key that is not marked has to
end on its line too. -/
def keyLimit : Nat := 1024

/-- A candidate that can still become a key. -/
def fresh? (here : Cursor) : Option Candidate → Except YamlFault (Option Candidate)
  | none => .ok none
  | some k =>
    if k.cursor.line = here.line ∧ here.index - k.cursor.index ≤ keyLimit then .ok (some k)
    else if k.required then malformed
    else .ok none

/-- Drops what cannot become a key any more. -/
def dropStale (s : Stream) : Except YamlFault Stream := do
  let candidate ← fresh? s.cursor s.candidate
  let outer ← s.outer.mapM fun (b, k) => do return (b, ← fresh? s.cursor k)
  .ok { s with candidate, outer }

/-- Drops what may be a key within the innermost brackets. -/
def dropCandidate (s : Stream) : Except YamlFault Stream :=
  if s.candidate.any (·.required) then malformed else .ok { s with candidate := none }

/-- Remembers that a key may start here. -/
def noteCandidate (s : Stream) : Except YamlFault Stream :=
  if s.keyAllowed then do
    let required := !s.inFlow && s.indents.head? == some s.cursor.column
    let s ← s.dropCandidate
    .ok { s with candidate := some ⟨s.count, required, s.cursor⟩ }
  else .ok s

/-! ## Blocks -/

/-- Whether a block can open in a column. -/
def opensBlock (s : Stream) (column : Nat) : Bool := s.indents.head?.all (· < column)

/-- Opens a block in a column, unless one is open there or further to the right. -/
def openBlock (s : Stream) (t : Token) (column : Nat) : Stream :=
  if s.opensBlock column then { s.add t with indents := column :: s.indents } else s

/-- Closes blocks, the innermost first, as long as their columns fit. -/
def closeWhile (closes : Nat → Bool) : List Nat → Stream → Stream
  | [], s => s
  | column :: rest, s =>
    if closes column then closeWhile closes rest { s.add .blockEnd with indents := rest } else s

/-- Closes the blocks that what stands in a column does not belong to. -/
def closeBlocks (s : Stream) (column : Nat) : Stream :=
  if s.inFlow then s else closeWhile (column < ·) s.indents s

def closeAll (s : Stream) : Stream := if s.inFlow then s else closeWhile (fun _ => true) s.indents s

/-! ## Between tokens -/

/-- Passes blanks, comments and line ends. Tabs count as blanks within brackets only. -/
def skipGap : Nat → Stream → Stream
  | 0, s => s
  | fuel + 1, s =>
    let c := (s.cursor.skip fun ch => ch == ' ' || s.inFlow && ch == '\t').skipComment
    match c.break? with
    | none => { s with cursor := c }
    | some (_, c) => skipGap fuel { s with cursor := c, keyAllowed := s.keyAllowed || !s.inFlow }

/-- Passes what stands between tokens, and at the start of a file the mark of its byte order. -/
def toToken (s : Stream) : Stream :=
  let c := if s.cursor.index = 0 ∧ s.cursor.at? '\ufeff' then s.cursor.next else s.cursor
  skipGap (c.rest.length + 1) { s with cursor := c }

/-! ## Single tokens -/

/-- A token that bounds documents or sets something for them. -/
def outside (s : Stream) (t : Token) (c : Cursor) : Except YamlFault Stream := do
  let s ← s.closeAll.dropCandidate
  .ok { s.addTo t c with keyAllowed := false }

/-- An opening bracket, which may itself be a key's start. -/
def openBracket (s : Stream) (b : Bracket) (t : Token) : Except YamlFault Stream := do
  let s ← s.noteCandidate
  .ok { s.addTo t s.cursor.next with
    outer := (b, s.candidate) :: s.outer
    candidate := none
    keyAllowed := true }

/-- A closing bracket, of whatever shape. -/
def closeBracket (s : Stream) (t : Token) : Except YamlFault Stream := do
  let s ← s.dropCandidate
  let (candidate, outer) := match s.outer with
    | [] => (none, [])
    | (_, k) :: rest => (k, rest)
  .ok { s.addTo t s.cursor.next with candidate, outer, keyAllowed := false }

def comma (s : Stream) : Except YamlFault Stream := do
  let s ← s.dropCandidate
  .ok { s.addTo .comma s.cursor.next with keyAllowed := true }

/-- A token that opens a block of its own unless one is open in its column. Within brackets there
are no blocks. -/
def inBlock (s : Stream) (block : Token) : Except YamlFault Stream :=
  if s.inFlow then .ok s
  else if s.keyAllowed then .ok (s.openBlock block s.cursor.column)
  else malformed

def item (s : Stream) : Except YamlFault Stream := do
  let s ← (← s.inBlock .blockList).dropCandidate
  .ok { s.addTo .item s.cursor.next with keyAllowed := true }

/-- The mark in front of a key that would not show otherwise. -/
def key (s : Stream) : Except YamlFault Stream := do
  let s ← (← s.inBlock .blockMapping).dropCandidate
  .ok { s.addTo .key s.cursor.next with keyAllowed := !s.inFlow }

/-- The colon behind a key; without a key it is the colon of a key that is missing or was marked. -/
def value (s : Stream) : Except YamlFault Stream :=
  match s.candidate with
  | some k =>
    let opens := !s.inFlow && s.opensBlock k.cursor.column
    let inserted := s.insert k.number (if opens then [.key, .blockMapping] else [.key])
    .ok { inserted.addTo .value s.cursor.next with
      indents := if opens then k.cursor.column :: s.indents else s.indents
      candidate := none
      keyAllowed := false }
  | none => do
    let s ← s.inBlock .blockMapping
    .ok { s.addTo .value s.cursor.next with keyAllowed := !s.inFlow }

/-- A token that may start a key, and behind which no key can start. -/
def word (s : Stream) (read : Cursor → Except YamlFault (Token × Cursor)) :
    Except YamlFault Stream := do
  let s ← s.noteCandidate
  let (t, c) ← read s.cursor
  .ok { s.addTo t c with keyAllowed := false }

def quotedScalar (s : Stream) (quote : Char) : Except YamlFault Stream :=
  s.word fun c => do
    let (text, c) ← quoted quote c
    .ok (.scalar false text, c)

/-- A plain scalar. Behind the end of its last line a key can start. -/
def plainScalar (s : Stream) : Except YamlFault Stream := do
  let s ← s.noteCandidate
  let (text, gap) := plain s.inFlow (s.indents.head?.elim 0 (· + 1)) s.cursor
  .ok { s.addTo (.scalar true text) gap.cursor with keyAllowed := gap.newLine }

/-- A scalar of several lines, behind which a key can start. -/
def literal (s : Stream) (folded : Bool) : Except YamlFault Stream := do
  let s ← s.dropCandidate
  let (text, c) ← blockScalar folded (s.indents.head?.elim 0 (· + 1)) s.cursor
  .ok { s.addTo (.scalar false text) c with keyAllowed := true }

/-! ## The next token -/

/-- Whether tokens are held back, since something in front of them may still be a key. If it turns
out to be one, the mark of a key has to be put in front of it, and no one may have seen it by then.
-/
def isHeld (s : Stream) : Bool := s.candidate.isSome || s.outer.any (·.2.isSome)

/-- Whether a colon is that of a key. In a list in brackets, and behind another colon that is `held`
back, it is one only in front of a gap. -/
def isValueMark (s : Stream) (held : Bool) (cs : List Char) : Bool :=
  match s.outer with
  | [] => atGap cs
  | (.square, _) :: _ => atGap cs
  | (.curly, _) :: _ => !(held && s.made.head? == some .value) || atGap cs

/-- Reads the token that starts with a character; `held` tells whether the tokens in front of it
were held back at the last one's end. -/
def readToken (s : Stream) (held : Bool) (ch : Char) (cs : List Char) : Except YamlFault Stream :=
  let rest := s.cursor.rest
  let lineStart := s.cursor.column == 0
  if lineStart && ch == '%' then do
    let (t, c) ← directiveToken s.cursor
    s.outside t c
  else if lineStart && atMark "---" rest then s.outside .documentStart (s.cursor.advance 3)
  else if lineStart && atMark "..." rest then s.outside .documentEnd (s.cursor.advance 3)
  else if ch == '[' then s.openBracket .square .listOpen
  else if ch == '\x7b' then s.openBracket .curly .mappingOpen
  else if ch == ']' then s.closeBracket .listClose
  else if ch == '\x7d' then s.closeBracket .mappingClose
  else if ch == ',' then s.comma
  else if ch == '-' && atGap cs then s.item
  else if ch == '?' && (s.inFlow || atGap cs) then s.key
  else if ch == ':' && s.isValueMark held cs then s.value
  else if ch == '*' then s.word (nameToken .reference)
  else if ch == '&' then s.word (nameToken .anchor)
  else if ch == '!' then s.word tagToken
  else if ch == '|' && !s.inFlow then s.literal false
  else if ch == '>' && !s.inFlow then s.literal true
  else if ch == '\'' || ch == '"' then s.quotedScalar ch
  else if startsPlain s.inFlow ch cs then s.plainScalar
  else malformed

/-- Reads on to the next token; at the end of the file, to its end. -/
def step (s : Stream) : Except YamlFault Stream := do
  let held := s.isHeld
  let s ← s.toToken.dropStale
  let s := s.closeBlocks s.cursor.column
  match s.cursor.rest with
  | [] => do
    let s ← s.closeAll.dropCandidate
    .ok ({ s with outer := [] }.add .finish)
  | ch :: cs => s.readToken held ch cs

def isFinished (s : Stream) : Bool := s.made.head? == some .finish

def run : Nat → Stream → List Token × YamlFault
  | 0, s => (s.given, .malformed)
  | fuel + 1, s =>
    if s.isFinished then (s.given, .malformed)
    else
      match s.dropStale with
      | .error fault => (s.given, fault)
      | .ok s =>
        match s.step with
        | .error fault => (s.given, fault)
        | .ok s => run fuel s

end Stream

/-- The tokens of a file as far as it can be read, and why it cannot be read further. -/
def tokens (cs : List Char) : List Token × YamlFault := (Stream.ofChars cs).run (cs.length + 2)

end Yaml

end Stencil
