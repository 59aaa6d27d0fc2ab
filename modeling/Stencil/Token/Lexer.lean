import Stencil.Text.Blank
import Stencil.Token

/-!
# Cutting a template into tokens

A tag runs from a brace to the next closing brace. Text runs up to the next brace; in it a
backslash must stand before another backslash or a brace, and gives that character. Spaces (not
line feeds) before a token are skipped, and so are all blanks at both ends of the template.

`Lexer.next` is one step. It answers with the lexer that it leaves even when it fails, since a
caller may go on from there: a bad escape or an open tag is met again and again, in the same
place.
-/

set_option autoImplicit false

namespace Stencil

/-- Why a template can not be cut into tokens. There is no fault for a character out of place:
outside tags everything but a wrong escape is text. -/
inductive LexFault where
  | illegalEscape
  | unterminatedTag
  | afterEnd
deriving DecidableEq

def LexFault.text : LexFault → String
  | .illegalEscape => "Illegal escape"
  | .unterminatedTag => "Unterminated tag"
  | .afterEnd => "No tokens after EOF"

/-- A fault and the place where it was met: the backslash of a wrong escape, the brace of a tag that
is not closed, or the end. -/
structure LexError where
  fault : LexFault
  place : Place
deriving DecidableEq

def LexError.message (e : LexError) : String := e.place.tell e.fault.text

/-- Whether the lexer last went into a tag. A caller can set it too, which changes no token, since
the next character decides what is read. -/
inductive Mode where
  | basic
  | tag
deriving DecidableEq

/-- A lexer: what is left of the template, where that starts, and the token it gave last. -/
structure Lexer where
  rest : List Char
  place : Place
  mode : Mode
  last : Option Token
deriving DecidableEq

namespace Lexer

def ofText (s : String) : Lexer := ⟨trim s.toList, Place.start, .basic, none⟩

def setMode (l : Lexer) (mode : Mode) : Lexer := { l with mode }

def isFinished (l : Lexer) : Bool := l.last.any (·.kind = .finish)

/-! ## One token -/

def isEscapable (c : Char) : Bool := c == '\\' || c == '{'

/-- Reads text up to a brace, to a backslash that gives no character, or to the end: the text, and
the place and the characters where it stops. -/
def scanText (p : Place) : List Char → List Char × Place × List Char
  | [] => ([], p, [])
  | '\\' :: c :: rest =>
    if isEscapable c then
      let (value, stop, left) := scanText ((p.next '\\').next c) rest
      (c :: value, stop, left)
    else ([], p, '\\' :: c :: rest)
  | c :: rest =>
    -- A brace, or a backslash that is the last character.
    if isEscapable c then ([], p, c :: rest)
    else
      let (value, stop, left) := scanText (p.next c) rest
      (c :: value, stop, left)

def skipSpaces (l : Lexer) : Lexer :=
  { l with rest := l.rest.dropWhile isSpace, place := l.place.after (l.rest.takeWhile isSpace) }

def emit (l : Lexer) (kind : TokenKind) (value : List Char) (place : Place) (rest : List Char) :
    Except LexError Token × Lexer :=
  let token : Token := ⟨kind, String.ofList value, l.place⟩
  (.ok token, { l with rest, place, last := some token })

/-- The token at the lexer's place, which is no space. -/
def read (l : Lexer) : Except LexError Token × Lexer :=
  match l.rest with
  | [] => l.emit .finish [] l.place []
  | '{' :: cs =>
    match cs.dropWhile (· != '}') with
    -- The brace is not passed, so whoever asks again meets it again.
    | [] => (.error ⟨.unterminatedTag, l.place⟩, { l with mode := .tag })
    | close :: rest =>
      let value := '{' :: cs.takeWhile (· != '}') ++ [close]
      ({ l with mode := .basic } : Lexer).emit .tag value (l.place.after value) rest
  | cs =>
    let l := { l with mode := .basic }
    let (value, place, rest) := scanText l.place cs
    match rest with
    -- The text in front of the escape is passed, and no token has it.
    | '\\' :: _ => (.error ⟨.illegalEscape, place⟩, { l with place, rest })
    | _ => l.emit .text value place rest

/-- The next token. After the end there is none, and asking for one is refused from then on; after
any other fault the lexer stands where the fault was met and meets it again. -/
def next (l : Lexer) : Except LexError Token × Lexer :=
  if l.isFinished then (.error ⟨.afterEnd, l.place⟩, l) else l.skipSpaces.read

/-! ## Every token takes something off the rest -/

theorem scanText_rest_le (p : Place) (cs : List Char) :
    (scanText p cs).2.2.length ≤ cs.length := by
  fun_induction scanText p cs with
  | case1 => simp
  | case2 => simp_all; omega
  | case3 => simp
  | case4 => simp
  | case5 => simp_all; omega

theorem length_dropWhile_le {α : Type} (p : α → Bool) (l : List α) :
    (l.dropWhile p).length ≤ l.length := (List.dropWhile_sublist p).length_le

theorem rest_lt_of_read {l l' : Lexer} {t : Token} (h : l.read = (.ok t, l'))
    (ht : t.kind ≠ .finish) : l'.rest.length < l.rest.length := by
  unfold read at h
  split at h
  · simp only [emit, Prod.mk.injEq, Except.ok.injEq] at h
    exact absurd (by rw [← h.1]) ht
  · rename_i cs hcs
    split at h
    · simp at h
    · rename_i close rest hrest
      simp only [emit, Prod.mk.injEq, Except.ok.injEq] at h
      have := length_dropWhile_le (· != '}') cs
      simp only [hrest, List.length_cons] at this
      simp only [← h.2, hcs, List.length_cons]
      omega
  · rename_i cs hnil hbrace
    dsimp only at h
    split at h
    · simp at h
    · rename_i hstop
      simp only [emit, Prod.mk.injEq, Except.ok.injEq] at h
      simp only [← h.2]
      match hcs : l.rest with
      | [] => exact absurd hcs hnil
      | c :: cs =>
        rw [hcs] at hstop
        unfold scanText at hstop ⊢
        split
        · simp
        · rename_i c' rest heq
          cases heq
          split
          · exact Nat.lt_succ_of_le (Nat.le_succ_of_le (scanText_rest_le _ rest))
          · rename_i hc
            simp [hc] at hstop
        · rename_i c' rest _ heq
          cases heq
          split
          · rename_i hc
            simp only [isEscapable, Bool.or_eq_true, beq_iff_eq] at hc
            rcases hc with rfl | rfl
            · cases cs with
              | nil => simp [isEscapable] at hstop
              | cons d ds => simp_all
            · exact absurd hcs (hbrace cs)
          · exact Nat.lt_succ_of_le (scanText_rest_le _ cs)

theorem rest_lt_of_next {l l' : Lexer} {t : Token} (h : l.next = (.ok t, l'))
    (ht : t.kind ≠ .finish) : l'.rest.length < l.rest.length := by
  unfold next at h
  split at h
  · simp at h
  · have := rest_lt_of_read h ht
    have hle := length_dropWhile_le isSpace l.rest
    simp only [skipSpaces] at this
    omega

/-! ## All tokens -/

/-- The tokens up to the end token. It goes on from wherever the lexer stands, so on one that has
ended it is refused. -/
def tokenize (l : Lexer) : Except LexError (List Token) × Lexer :=
  match _ : l.next with
  | (.error e, l') => (.error e, l')
  | (.ok token, l') =>
    if _ : token.kind = .finish then (.ok [token], l')
    else
      let (tokens, left) := l'.tokenize
      (tokens.map (token :: ·), left)
termination_by l.rest.length
decreasing_by exact rest_lt_of_next ‹_› ‹_›

end Lexer

def tokenize (s : String) : Except LexError (List Token) := (Lexer.ofText s).tokenize.1

end Stencil
