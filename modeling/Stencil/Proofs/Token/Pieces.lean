import Stencil.Proofs.Tag.Canonical
import Stencil.Token.Lexer

/-!
# The pieces of a template

`Scans p cs tokens` says, without a lexer, which tokens the characters from a place on have: spaces
that do not count, tags up to the first closing brace, and texts up to the next opening one. The
lexer gives exactly these (`tokenize_eq_ok_iff`). `Cuts cs pieces` is the same without the places
(`exists_tokenize_iff`).
-/

set_option autoImplicit false

namespace Stencil

/-- A piece of a template: a text with its escapes resolved, or a tag as it is written. -/
inductive Piece where
  | text (value : List Char)
  | tag (value : List Char)

def Token.piece? (token : Token) : Option Piece :=
  match token.kind with
  | .text => some (.text token.value.toList)
  | .tag => some (.tag token.value.toList)
  | .finish => none

/-- Text as it is written and what it stands for. A character that must be escaped is never read
without its backslash, so each of the two determines the other. -/
inductive Escaped : List Char → List Char → Prop
  | nil : Escaped [] []
  | plain {c : Char} {raw value : List Char} (hc : Lexer.isEscapable c = false)
      (h : Escaped raw value) : Escaped (c :: raw) (c :: value)
  | escape {c : Char} {raw value : List Char} (hc : Lexer.isEscapable c = true)
      (h : Escaped raw value) : Escaped ('\\' :: c :: raw) (c :: value)

/-- A template and its pieces, without places. A text starts with no space and ends at a brace or at
the end, so the pieces are settled by the characters; spaces in front of a piece belong to none. -/
inductive Cuts : List Char → List Piece → Prop
  | nil : Cuts [] []
  | space {c : Char} {cs : List Char} {pieces : List Piece} (hc : isSpace c = true)
      (h : Cuts cs pieces) : Cuts (c :: cs) pieces
  | tag {tag cs : List Char} {pieces : List Piece} (he : Enclosed tag) (h : Cuts cs pieces) :
      Cuts (tag ++ cs) (.tag tag :: pieces)
  | text {raw value cs : List Char} {pieces : List Piece} (hr : Escaped raw value)
      (hne : raw ≠ []) (hs : raw.head?.all (!isSpace ·)) (hc : cs.head?.all (· == '{'))
      (h : Cuts cs pieces) :
      Cuts (raw ++ cs) (.text value :: pieces)

/-- The characters from a place on, and their tokens. It is `Cuts` with places and with the end
token, as the lexer gives them. -/
inductive Scans : Place → List Char → List Token → Prop
  | finish (p : Place) : Scans p [] [⟨.finish, String.ofList [], p⟩]
  | space {p : Place} {c : Char} {cs : List Char} {tokens : List Token} (hc : isSpace c = true)
      (h : Scans (p.next c) cs tokens) : Scans p (c :: cs) tokens
  | tag {p : Place} {tag cs : List Char} {tokens : List Token} (he : Enclosed tag)
      (h : Scans (p.after tag) cs tokens) :
      Scans p (tag ++ cs) (⟨.tag, String.ofList tag, p⟩ :: tokens)
  | text {p : Place} {raw value cs : List Char} {tokens : List Token} (hr : Escaped raw value)
      (hne : raw ≠ []) (hs : raw.head?.all (!isSpace ·)) (hc : cs.head?.all (· == '{'))
      (h : Scans (p.after raw) cs tokens) :
      Scans p (raw ++ cs) (⟨.text, String.ofList value, p⟩ :: tokens)

theorem Scans.cuts {p : Place} {cs : List Char} {tokens : List Token} (h : Scans p cs tokens) :
    Cuts cs (tokens.filterMap Token.piece?) := by
  induction h with
  | finish _ => exact .nil
  | space hc _ ih => exact .space hc ih
  | tag he _ ih => simpa [Token.piece?] using Cuts.tag he ih
  | text hr hne hs hc _ ih => simpa [Token.piece?] using Cuts.text hr hne hs hc ih

theorem Cuts.exists_scans {cs : List Char} {pieces : List Piece} (h : Cuts cs pieces) :
    ∀ p, ∃ tokens, Scans p cs tokens ∧ tokens.filterMap Token.piece? = pieces := by
  induction h with
  | nil => exact fun p => ⟨_, .finish p, rfl⟩
  | space hc _ ih =>
    intro p
    obtain ⟨tokens, hscans, hpieces⟩ := ih (p.next _)
    exact ⟨tokens, .space hc hscans, hpieces⟩
  | tag he _ ih =>
    intro p
    obtain ⟨tokens, hscans, hpieces⟩ := ih (p.after _)
    exact ⟨_, .tag he hscans, by simp [Token.piece?, hpieces]⟩
  | text hr hne hs hc _ ih =>
    intro p
    obtain ⟨tokens, hscans, hpieces⟩ := ih (p.after _)
    exact ⟨_, .text hr hne hs hc hscans, by simp [Token.piece?, hpieces]⟩

theorem Scans.of_dropWhile {cs : List Char} {tokens : List Token} :
    ∀ {p : Place}, Scans (p.after (cs.takeWhile isSpace)) (cs.dropWhile isSpace) tokens →
      Scans p cs tokens := by
  induction cs with
  | nil => exact fun h => h
  | cons c cs ih =>
    intro p h
    rw [List.dropWhile_cons, List.takeWhile_cons] at h
    split at h
    · rename_i hc
      exact .space hc (ih h)
    · exact h

theorem Place.after_append (p : Place) (cs cs' : List Char) :
    p.after (cs ++ cs') = (p.after cs).after cs' := List.foldl_append

/-! ## The first token -/

/-- The characters that make up a token, with the spaces in front of it. The end token takes none,
and is left out. -/
inductive Takes : Place → List Char → Token → Prop
  | space {p : Place} {c : Char} {cs : List Char} {token : Token} (hc : isSpace c = true)
      (h : Takes (p.next c) cs token) : Takes p (c :: cs) token
  | tag {p : Place} {tag : List Char} (he : Enclosed tag) :
      Takes p tag ⟨.tag, String.ofList tag, p⟩
  | text {p : Place} {raw value : List Char} (hr : Escaped raw value) (hne : raw ≠ [])
      (hs : raw.head?.all (!isSpace ·)) : Takes p raw ⟨.text, String.ofList value, p⟩

/-- Where a token can end: a text only at a brace or at the end, anything else anywhere. -/
def Token.EndsAt (token : Token) (rest : List Char) : Prop :=
  token.kind = .text → rest.head?.all (· == '{')

namespace Takes

variable {p : Place} {front rest : List Char} {token : Token}

theorem kind_ne_finish (h : Takes p front token) : token.kind ≠ .finish := by
  induction h with
  | space _ _ ih => exact ih
  | tag _ => simp
  | text _ _ _ => simp

theorem ne_nil (h : Takes p front token) : front ≠ [] := by
  cases h with
  | space _ _ => simp
  | tag he =>
    obtain ⟨inner, rfl, -⟩ := he
    simp
  | text _ hne _ => exact hne

theorem scans {tokens : List Token} (h : Takes p front token) (hend : token.EndsAt rest)
    (htokens : Scans (p.after front) rest tokens) : Scans p (front ++ rest) (token :: tokens) := by
  induction h with
  | space hc _ ih => exact .space hc (ih hend htokens)
  | tag he => exact .tag he htokens
  | text hr hne hs => exact .text hr hne hs (hend rfl) htokens

theorem of_spaces {gap : List Char} (hgap : ∀ c ∈ gap, isSpace c = true) :
    ∀ {p : Place}, Takes (p.after gap) front token → Takes p (gap ++ front) token := by
  induction gap with
  | nil => exact fun h => h
  | cons c gap ih =>
    intro p h
    exact .space (hgap c List.mem_cons_self)
      (ih (fun d hmem => hgap d (List.mem_cons_of_mem c hmem)) h)

end Takes

namespace Lexer

/-! ## Reading a text -/

theorem scanText_plain {c : Char} (hc : isEscapable c = false) (p : Place) (cs : List Char) :
    scanText p (c :: cs) = (c :: (scanText (p.next c) cs).1, (scanText (p.next c) cs).2) := by
  have hslash : c ≠ '\\' := by
    rintro rfl
    exact absurd hc (by decide)
  rw [scanText, if_neg (by simp [hc])]
  exact fun _ _ heq => absurd heq hslash

theorem scanText_escape {c : Char} (hc : isEscapable c = true) (p : Place) (cs : List Char) :
    scanText p ('\\' :: c :: cs) = (c :: (scanText ((p.next '\\').next c) cs).1,
      (scanText ((p.next '\\').next c) cs).2) := by
  rw [scanText, if_pos hc]

theorem scanText_of_escaped {raw value rest : List Char} (h : Escaped raw value)
    (hrest : rest.head?.all (· == '{')) :
    ∀ p : Place, scanText p (raw ++ rest) = (value, p.after raw, rest) := by
  induction h with
  | nil =>
    intro p
    cases rest with
    | nil => rfl
    | cons c rest =>
      obtain rfl : c = '{' := by simpa using hrest
      simp [scanText, isEscapable, Place.after]
  | plain hc _ ih =>
    intro p
    rw [List.cons_append, scanText_plain hc, ih]
    rfl
  | escape hc _ ih =>
    intro p
    rw [List.cons_append, List.cons_append, scanText_escape hc, ih]
    rfl

theorem escaped_scanText (p : Place) (cs : List Char) :
    ∃ raw, Escaped raw (scanText p cs).1 ∧ cs = raw ++ (scanText p cs).2.2 ∧
      (scanText p cs).2.1 = p.after raw ∧ (scanText p cs).2.2.head?.all isEscapable := by
  fun_induction scanText p cs with
  | case1 p => exact ⟨[], .nil, rfl, rfl, rfl⟩
  | case2 p c rest hc value stop left heq ih =>
    obtain ⟨raw, hraw, hsplit, hplace, hstop⟩ := ih
    rw [heq] at hraw hsplit hplace hstop
    exact ⟨'\\' :: c :: raw, .escape hc hraw, by simp [← hsplit], hplace, hstop⟩
  | case3 p c rest hc => exact ⟨[], .nil, rfl, rfl, rfl⟩
  | case4 p c rest hne hc => exact ⟨[], .nil, rfl, rfl, by simpa using hc⟩
  | case5 p c rest hne hc value stop left heq ih =>
    obtain ⟨raw, hraw, hsplit, hplace, hstop⟩ := ih
    rw [heq] at hraw hsplit hplace hstop
    exact ⟨c :: raw, .plain (by simpa using hc) hraw, by simp [← hsplit], hplace, hstop⟩

/-- Where there is a text to read and no backslash stops it, the text is not empty, and a brace
stands behind it unless it is the end. -/
theorem exists_raw_of_scanText {p : Place} {cs : List Char} (hnil : cs ≠ [])
    (hbrace : ∀ rest, cs ≠ '{' :: rest) (hslash : ∀ rest, (scanText p cs).2.2 ≠ '\\' :: rest) :
    ∃ raw, Escaped raw (scanText p cs).1 ∧ raw ≠ [] ∧ cs = raw ++ (scanText p cs).2.2 ∧
      (scanText p cs).2.1 = p.after raw ∧ (scanText p cs).2.2.head?.all (· == '{') := by
  obtain ⟨raw, hraw, hsplit, hplace, hstop⟩ := escaped_scanText p cs
  have hend : (scanText p cs).2.2.head?.all (· == '{') := by
    cases hrest : (scanText p cs).2.2 with
    | nil => rfl
    | cons c rest =>
      rw [hrest] at hstop
      have hc : c = '\\' ∨ c = '{' := by simpa [isEscapable] using hstop
      rcases hc with rfl | rfl
      · exact absurd hrest (hslash rest)
      · rfl
  refine ⟨raw, hraw, ?_, hsplit, hplace, hend⟩
  rintro rfl
  -- Nothing would be read only in front of a brace or at the end.
  rw [List.nil_append] at hsplit
  rw [← hsplit] at hend
  cases cs with
  | nil => exact hnil rfl
  | cons c cs =>
    obtain rfl : c = '{' := by simpa using hend
    exact hbrace cs rfl

/-! ## One token -/

variable {l l' : Lexer} {token : Token}

theorem next_of_space {c : Char} {cs : List Char} (hl : l.isFinished = false)
    (hrest : l.rest = c :: cs) (hc : isSpace c = true) :
    l.next = ({ l with rest := cs, place := l.place.next c } : Lexer).next := by
  obtain ⟨rest, place, mode, last⟩ := l
  subst hrest
  have hl' : isFinished ⟨cs, place.next c, mode, last⟩ = false := hl
  rw [next, next, if_neg (by simp [hl]), if_neg (by simp [hl'])]
  congr 1
  simp [skipSpaces, hc, Place.after]

theorem skipSpaces_of_head (h : l.rest.head?.all (!isSpace ·)) : l.skipSpaces = l := by
  obtain ⟨rest, place, mode, last⟩ := l
  cases rest with
  | nil => rfl
  | cons c cs =>
    have hc : isSpace c = false := by simpa using h
    simp [skipSpaces, hc, Place.after]

theorem next_eq_read (hl : l.isFinished = false) (h : l.rest.head?.all (!isSpace ·)) :
    l.next = l.read := by
  rw [next, if_neg (by simp [hl]), skipSpaces_of_head h]

theorem next_of_nil (hl : l.isFinished = false) (hrest : l.rest = []) :
    l.next = l.emit .finish [] l.place [] := by
  rw [next_eq_read hl (by simp [hrest]), read, hrest]

theorem exists_next_of_tag {tag cs : List Char} (hl : l.isFinished = false)
    (hrest : l.rest = tag ++ cs) (he : Enclosed tag) :
    ∃ l', l.next = (.ok ⟨.tag, String.ofList tag, l.place⟩, l') ∧ l'.isFinished = false ∧
      l'.rest = cs ∧ l'.place = l.place.after tag := by
  obtain ⟨inner, rfl, hinner⟩ := he
  have hfront : l.rest = '{' :: (inner ++ '}' :: cs) := by simp [hrest]
  have hpos : ∀ c ∈ inner, (c != '}') = true := by
    intro c hmem
    rw [bne_iff_ne]
    rintro rfl
    exact hinner hmem
  have hdrop : (inner ++ '}' :: cs).dropWhile (· != '}') = '}' :: cs := dropWhile_span hpos rfl
  have htake : (inner ++ '}' :: cs).takeWhile (· != '}') = inner := takeWhile_span hpos rfl
  rw [next_eq_read hl (by rw [hfront]; rfl), read, hfront]
  simp only [hdrop, htake]
  exact ⟨_, rfl, rfl, rfl, rfl⟩

theorem exists_next_of_text {raw value cs : List Char} (hl : l.isFinished = false)
    (hrest : l.rest = raw ++ cs) (hr : Escaped raw value) (hne : raw ≠ [])
    (hs : raw.head?.all (!isSpace ·)) (hc : cs.head?.all (· == '{')) :
    ∃ l', l.next = (.ok ⟨.text, String.ofList value, l.place⟩, l') ∧ l'.isFinished = false ∧
      l'.rest = cs ∧ l'.place = l.place.after raw := by
  have hhead : l.rest.head?.all (!isSpace ·) := by
    cases raw with
    | nil => exact absurd rfl hne
    | cons c raw => simpa [hrest] using hs
  have hscan := scanText_of_escaped hr hc l.place
  rw [← hrest] at hscan
  rw [next_eq_read hl hhead, read]
  split
  · -- A text is not empty.
    rename_i hnil
    cases raw with
    | nil => exact absurd rfl hne
    | cons c raw => exact absurd (hrest.symm.trans hnil) (by simp)
  · -- A text does not start with a brace, unless that is escaped.
    rename_i inner hbrace
    cases hr with
    | nil => exact absurd rfl hne
    | plain hplain _ =>
      obtain ⟨rfl, -⟩ := List.cons.inj (hrest.symm.trans hbrace)
      exact absurd hplain (by decide)
    | escape _ _ => exact absurd (hrest.symm.trans hbrace) (by simp)
  · dsimp only
    rw [hscan]
    split
    · rename_i after hstop
      rw [show cs = '\\' :: after from hstop] at hc
      exact absurd (show ('\\' == '{') = true from hc) (by decide)
    · exact ⟨_, rfl, rfl, rfl, rfl⟩

theorem exists_next_of_takes {p : Place} {front : List Char} (h : Takes p front token) :
    ∀ {l : Lexer} {rest : List Char}, l.isFinished = false → l.place = p → l.rest = front ++ rest →
      token.EndsAt rest → ∃ l', l.next = (.ok token, l') ∧ l'.isFinished = false ∧
        l'.rest = rest ∧ l'.place = p.after front := by
  induction h with
  | space hc _ ih =>
    rintro l rest hl rfl hrest hend
    rw [next_of_space hl hrest hc]
    exact ih hl rfl rfl hend
  | tag he =>
    rintro l rest hl rfl hrest -
    exact exists_next_of_tag hl hrest he
  | text hr hne hs =>
    rintro l rest hl rfl hrest hend
    exact exists_next_of_text hl hrest hr hne hs (hend rfl)

/-- What is read without spaces in front: the end token at the end, and before it what the next
characters make up. -/
theorem takes_of_read (hspace : l.rest.head?.all (!isSpace ·)) (h : l.read = (.ok token, l')) :
    l.rest = [] ∧ token = ⟨.finish, String.ofList [], l.place⟩ ∨
      ∃ front, l.rest = front ++ l'.rest ∧ l'.place = l.place.after front ∧
        Takes l.place front token ∧ token.EndsAt l'.rest := by
  unfold read at h
  split at h
  · rename_i hrest
    cases h
    exact .inl ⟨hrest, rfl⟩
  · rename_i cs hrest
    split at h
    · exact absurd h (by simp)
    · rename_i close rest hclose
      cases h
      -- The character where the tag stops is the closing brace.
      have hsplit := List.takeWhile_append_dropWhile (p := (· != '}')) (l := cs)
      have hbrace := List.head?_dropWhile_not (· != '}') cs
      rw [hclose] at hsplit hbrace
      obtain rfl : close = '}' := by simpa using hbrace
      have hinner : '}' ∉ cs.takeWhile (· != '}') :=
        fun hmem => absurd (List.mem_takeWhile_imp hmem) (by simp)
      generalize cs.takeWhile (· != '}') = inner at *
      refine .inr ⟨'{' :: inner ++ ['}'], ?_, rfl, .tag ⟨inner, rfl, hinner⟩,
        by simp [Token.EndsAt]⟩
      rw [hrest, ← hsplit]
      simp
  · rename_i hnil hbrace
    dsimp only at h
    split at h
    · exact absurd h (by simp)
    · rename_i hslash
      cases h
      obtain ⟨raw, hraw, hne, hsplit, hplace, hend⟩ := exists_raw_of_scanText hnil hbrace hslash
      refine .inr ⟨raw, hsplit, hplace, .text hraw hne ?_, fun _ => hend⟩
      cases raw with
      | nil => rfl
      | cons c raw =>
        rw [hsplit] at hspace
        exact hspace

/-- What is given: the end token if only spaces are left, and else what the next characters make
up. -/
theorem takes_of_next (h : l.next = (.ok token, l')) :
    token.kind = .finish ∧ Scans l.place l.rest [token] ∨
      ∃ front, l.rest = front ++ l'.rest ∧ l'.place = l.place.after front ∧
        Takes l.place front token ∧ token.EndsAt l'.rest := by
  unfold next at h
  split at h
  · exact absurd h (by simp)
  · rcases takes_of_read (head?_dropWhile isSpace l.rest) h with
      ⟨hrest, rfl⟩ | ⟨front, hrest, hplace, htakes, hend⟩
    · have hfinish : Scans l.skipSpaces.place l.skipSpaces.rest
          [⟨.finish, String.ofList [], l.skipSpaces.place⟩] := by
        rw [hrest]
        exact .finish _
      exact .inl ⟨rfl, .of_dropWhile hfinish⟩
    · have hgap : ∀ c ∈ l.rest.takeWhile isSpace, isSpace c = true :=
        fun _ hmem => List.mem_takeWhile_imp hmem
      have hsplit : l.rest.dropWhile isSpace = front ++ l'.rest := hrest
      refine .inr ⟨l.rest.takeWhile isSpace ++ front, ?_, ?_, .of_spaces hgap htakes, hend⟩
      · rw [List.append_assoc, ← hsplit, List.takeWhile_append_dropWhile]
      · rw [Place.after_append]
        exact hplace

theorem scans_of_next (h : l.next = (.ok token, l')) :
    token.kind = .finish ∧ Scans l.place l.rest [token] ∨
      token.kind ≠ .finish ∧
        ∀ tokens, Scans l'.place l'.rest tokens → Scans l.place l.rest (token :: tokens) := by
  rcases takes_of_next h with hfinish | ⟨front, hrest, hplace, htakes, hend⟩
  · exact .inl hfinish
  · refine .inr ⟨htakes.kind_ne_finish, fun tokens htokens => ?_⟩
    rw [hplace] at htokens
    rw [hrest]
    exact htakes.scans hend htokens

/-! ## All tokens -/

/-- What holds of a lexer if it holds of each one that is left behind a token but the last holds of
all lexers. -/
theorem induction {P : Lexer → Prop}
    (step : ∀ l, (∀ token l', l.next = (.ok token, l') → token.kind ≠ .finish → P l') → P l)
    (l : Lexer) : P l :=
  step l fun _ l' _ _ => induction step l'
termination_by l.rest.length
decreasing_by exact rest_lt_of_next ‹_› ‹_›

theorem tokenize_of_finish (h : l.next = (.ok token, l')) (hk : token.kind = .finish) :
    l.tokenize = (.ok [token], l') := by
  rw [tokenize]
  split
  · rename_i heq
    rw [h] at heq
    exact absurd heq (by simp)
  · rename_i heq
    rw [h] at heq
    cases heq
    rw [dif_pos hk]

theorem tokenize_of_next (h : l.next = (.ok token, l')) (hk : token.kind ≠ .finish) :
    l.tokenize = (l'.tokenize.1.map (token :: ·), l'.tokenize.2) := by
  rw [tokenize]
  split
  · rename_i heq
    rw [h] at heq
    exact absurd heq (by simp)
  · rename_i heq
    rw [h] at heq
    cases heq
    rw [dif_neg hk]

theorem tokenize_of_error {e : LexError} (h : l.next = (.error e, l')) :
    l.tokenize = (.error e, l') := by
  rw [tokenize]
  split
  · rename_i heq
    rw [h] at heq
    cases heq
    rfl
  · rename_i heq
    rw [h] at heq
    exact absurd heq (by simp)

theorem scans_of_tokenize (l : Lexer) :
    ∀ tokens, l.tokenize.1 = .ok tokens → Scans l.place l.rest tokens := by
  induction l using induction with
  | step l ih =>
    intro tokens h
    cases hnext : l.next with
    | mk r l' =>
    cases r with
    | error e =>
      rw [tokenize_of_error hnext] at h
      exact absurd h (by simp)
    | ok token =>
      rcases scans_of_next hnext with ⟨hk, hscans⟩ | ⟨hk, hscans⟩
      · rw [tokenize_of_finish hnext hk] at h
        cases h
        exact hscans
      · rw [tokenize_of_next hnext hk] at h
        obtain ⟨rest, hrest, rfl⟩ := map_eq_ok_iff.1 h
        exact hscans rest (ih token l' hnext hk rest hrest)

theorem tokenize_of_scans {p : Place} {cs : List Char} {tokens : List Token}
    (h : Scans p cs tokens) :
    ∀ l : Lexer, l.isFinished = false → l.rest = cs → l.place = p →
      l.tokenize.1 = .ok tokens := by
  induction h with
  | finish p =>
    rintro l hl hrest rfl
    have hnext := next_of_nil hl hrest
    rw [tokenize_of_finish hnext rfl]
  | space hc _ ih =>
    rintro l hl hrest rfl
    rename_i c cs tokens _
    -- Spaces are passed within a step, so one space more is no step more.
    have hsame : l.tokenize =
        ({ l with rest := cs, place := l.place.next c } : Lexer).tokenize := by
      rw [tokenize, tokenize, next_of_space hl hrest hc]
    rw [hsame]
    exact ih _ hl rfl rfl
  | tag he _ ih =>
    rintro l hl hrest rfl
    obtain ⟨l', hnext, hl', hrest', hplace'⟩ := exists_next_of_tag hl hrest he
    rw [tokenize_of_next hnext (by simp), ih l' hl' hrest' hplace']
    rfl
  | text hr hne hs hc _ ih =>
    rintro l hl hrest rfl
    obtain ⟨l', hnext, hl', hrest', hplace'⟩ := exists_next_of_text hl hrest hr hne hs hc
    rw [tokenize_of_next hnext (by simp), ih l' hl' hrest' hplace']
    rfl

end Lexer

theorem Scans.unique {p : Place} {cs : List Char} {tokens tokens' : List Token}
    (h : Scans p cs tokens) (h' : Scans p cs tokens') : tokens = tokens' := by
  have htokens := Lexer.tokenize_of_scans h ⟨cs, p, .basic, none⟩ rfl rfl rfl
  rw [Lexer.tokenize_of_scans h' ⟨cs, p, .basic, none⟩ rfl rfl rfl] at htokens
  exact (Except.ok.inj htokens).symm

/-- The tokens of a template are those of its characters, without the blanks at both ends. `Scans`
has no lexer in it, so what holds of tokens can be shown by induction on it. -/
theorem tokenize_eq_ok_iff {s : String} {tokens : List Token} :
    tokenize s = .ok tokens ↔ Scans Place.start (trim s.toList) tokens :=
  ⟨Lexer.scans_of_tokenize (Lexer.ofText s) tokens,
    fun h => Lexer.tokenize_of_scans h (Lexer.ofText s) rfl rfl rfl⟩

theorem exists_tokenize_iff {s : String} {pieces : List Piece} :
    (∃ tokens, tokenize s = .ok tokens ∧ tokens.filterMap Token.piece? = pieces) ↔
      Cuts (trim s.toList) pieces := by
  simp only [tokenize_eq_ok_iff]
  constructor
  · rintro ⟨tokens, h, rfl⟩
    exact h.cuts
  · exact fun h => h.exists_scans _

end Stencil
