import Stencil.Missing
import Stencil.Proofs.Replies
import Stencil.Proofs.Token.Pieces

/-!
# A lexer replays one stream

Whatever a caller does, a lexer hands out the tokens of its template in their order, and then fails
for ever with one and the same error. `Plays l tokens e` says which tokens and which error are
ahead of a lexer. The mode, which a caller can set, has no part in it, and a failure leaves the
lexer at the place where the same failure is met again. So a lexer can not be told from a script of
its tokens that counts how many of them are used (`replays`).
-/

set_option autoImplicit false

namespace Stencil

namespace Lexer

variable {l l' : Lexer} {token : Token} {tokens : List Token} {e : LexError}

/-! ## The mode -/

theorem exists_read_setMode (l : Lexer) (mode : Mode) :
    ∃ mode', (l.setMode mode).read = (l.read.1, l.read.2.setMode mode') := by
  obtain ⟨rest, place, mode₀, last⟩ := l
  unfold read setMode
  dsimp only
  split
  · exact ⟨mode, rfl⟩
  · split
    · exact ⟨.tag, rfl⟩
    · exact ⟨.basic, rfl⟩
  · split
    · exact ⟨.basic, rfl⟩
    · exact ⟨.basic, rfl⟩

/-- The mode decides neither the next token nor what is left behind it. It is kept for those who ask
for it; what a token is, the lexer tells by the characters ahead. -/
theorem exists_next_setMode (l : Lexer) (mode : Mode) :
    ∃ mode', (l.setMode mode).next = (l.next.1, l.next.2.setMode mode') := by
  unfold next
  rw [show (l.setMode mode).isFinished = l.isFinished from rfl]
  split
  · exact ⟨mode, rfl⟩
  · exact exists_read_setMode l.skipSpaces mode

/-! ## Failures -/

theorem scanText_again {p q : Place} {cs rest : List Char}
    (h : (scanText p cs).2.2 = '\\' :: rest) :
    scanText q ('\\' :: rest) = ([], q, '\\' :: rest) := by
  fun_induction scanText p cs with
  | case1 => exact absurd h (by simp)
  | case2 p c cs hc value stop left heq ih =>
    rw [heq] at ih
    exact ih h
  | case3 p c cs hc =>
    obtain rfl : c :: cs = rest := (List.cons.inj h).2
    rw [scanText, if_neg hc]
  | case4 p c cs hne hc =>
    obtain ⟨rfl, rfl⟩ := List.cons.inj h
    cases cs with
    | nil => rfl
    | cons d cs => exact absurd rfl (hne d cs rfl)
  | case5 p c cs hne hc value stop left heq ih =>
    rw [heq] at ih
    exact ih h

theorem read_of_stopped {rest : List Char} (hrest : l.rest = '\\' :: rest)
    (hstop : scanText l.place l.rest = ([], l.place, '\\' :: rest)) :
    l.read = (.error ⟨.illegalEscape, l.place⟩, { l with mode := .basic }) := by
  unfold read
  split
  · rename_i hnil
    exact absurd (hrest.symm.trans hnil) (by simp)
  · rename_i hbrace
    exact absurd (hrest.symm.trans hbrace) (by simp)
  · dsimp only
    rw [hstop, hrest]
    rfl

theorem read_of_error (hspace : l.rest.head?.all (!isSpace ·)) (h : l.read = (.error e, l')) :
    l'.read = (.error e, l') ∧ l'.rest.head?.all (!isSpace ·) ∧ l'.last = l.last ∧
      l'.place = e.place := by
  obtain ⟨rest, place, mode, last⟩ := l
  unfold read at h
  dsimp only at h hspace
  split at h
  · exact absurd h (by simp [emit])
  · rename_i cs
    split at h
    · rename_i hopen
      cases h
      refine ⟨?_, hspace, rfl, rfl⟩
      simp only [read, hopen]
    · exact absurd h (by simp [emit])
  · split at h
    · rename_i rest' hstop
      cases h
      rw [hstop]
      exact ⟨read_of_stopped rfl (scanText_again hstop), rfl, rfl, rfl⟩
    · exact absurd h (by simp [emit])

/-- A lexer that has failed fails again, and stays as it is. It has gone to the place of the error
by then, and what is ahead there is the same error. -/
theorem next_of_error (h : l.next = (.error e, l')) :
    l'.next = (.error e, l') ∧ l'.last = l.last ∧ l'.place = e.place := by
  have hnext := h
  unfold next at h
  split at h
  · obtain ⟨he, rfl⟩ := Prod.mk.inj h
    rw [← Except.error.inj he]
    rw [← Except.error.inj he] at hnext
    exact ⟨hnext, rfl, rfl⟩
  · rename_i hl
    obtain ⟨hread, hspace, hlast, hplace⟩ := read_of_error (head?_dropWhile isSpace l.rest) h
    have hlast' : l'.last = l.last := hlast
    have hl' : l'.isFinished = false := by
      simpa [isFinished, hlast'] using hl
    rw [next_eq_read hl' hspace]
    exact ⟨hread, hlast', hplace⟩

/-! ## What is ahead -/

/-- The tokens that a lexer gives from now on, and the error that it gives behind them. Every lexer
comes to an error at last, as asking for more than the end token is one. -/
inductive Plays : Lexer → List Token → LexError → Prop
  | stop {l l' : Lexer} {e : LexError} (h : l.next = (.error e, l')) : Plays l [] e
  | token {l l' : Lexer} {token : Token} {tokens : List Token} {e : LexError}
      (h : l.next = (.ok token, l')) (hrest : Plays l' tokens e) : Plays l (token :: tokens) e

theorem last_of_read (h : l.read = (.ok token, l')) : l'.last = some token := by
  unfold read at h
  split at h
  · cases h
    rfl
  · split at h
    · exact absurd h (by simp)
    · cases h
      rfl
  · dsimp only at h
    split at h
    · exact absurd h (by simp)
    · cases h
      rfl

theorem last_of_next (h : l.next = (.ok token, l')) : l'.last = some token := by
  unfold next at h
  split at h
  · exact absurd h (by simp)
  · exact last_of_read h

theorem next_of_finish (h : l.next = (.ok token, l')) (hk : token.kind = .finish) :
    l'.next = (.error ⟨.afterEnd, l'.place⟩, l') := by
  rw [next, if_pos]
  simp [isFinished, last_of_next h, hk]

theorem exists_plays (l : Lexer) : ∃ tokens e, Plays l tokens e := by
  induction l using Lexer.induction with
  | step l ih =>
    cases hnext : l.next with
    | mk r l' =>
    cases r with
    | error e => exact ⟨[], e, .stop hnext⟩
    | ok token =>
      by_cases hk : token.kind = .finish
      · exact ⟨[token], _, .token hnext (.stop (next_of_finish hnext hk))⟩
      · obtain ⟨tokens, e, hrest⟩ := ih token l' hnext hk
        exact ⟨token :: tokens, e, .token hnext hrest⟩

namespace Plays

theorem setMode (h : Plays l tokens e) : ∀ mode, Plays (l.setMode mode) tokens e := by
  induction h with
  | @stop l l' e hnext =>
    intro mode
    obtain ⟨mode', hmode⟩ := exists_next_setMode l mode
    rw [hnext] at hmode
    exact .stop hmode
  | @token l l' token tokens e hnext _ ih =>
    intro mode
    obtain ⟨mode', hmode⟩ := exists_next_setMode l mode
    rw [hnext] at hmode
    exact .token hmode (ih mode')

theorem next_of_nil (h : Plays l [] e) :
    ∃ l', l.next = (.error e, l') ∧ Plays l' [] e ∧ l'.last = l.last := by
  cases h with
  | @stop _ l' _ hnext =>
    obtain ⟨hagain, hlast, -⟩ := next_of_error hnext
    exact ⟨l', hnext, .stop hagain, hlast⟩

theorem next_of_cons (h : Plays l (token :: tokens) e) :
    ∃ l', l.next = (.ok token, l') ∧ Plays l' tokens e ∧ l'.last = some token := by
  cases h with
  | @token _ l' _ _ _ hnext hrest => exact ⟨l', hnext, hrest, last_of_next hnext⟩

theorem eq_of_stop {e' : LexError} (h : Plays l tokens e) (h' : Plays l [] e') : e = e' := by
  obtain ⟨l', hnext', -⟩ := h'.next_of_nil
  cases h with
  | stop hnext =>
    rw [hnext'] at hnext
    cases hnext
    rfl
  | token hnext _ => exact absurd (hnext'.symm.trans hnext) (by simp)

theorem eq_nil_of_finish (h : Plays l (token :: tokens) e) (hk : token.kind = .finish) :
    tokens = [] := by
  cases h with
  | token hnext hrest =>
    cases hrest with
    | stop _ => rfl
    | token hnext' _ => exact absurd ((next_of_finish hnext hk).symm.trans hnext') (by simp)

/-- All tokens at once are the tokens one by one, if the end token is among them. Otherwise there is
an error on the way, and none of the tokens in front of it is handed out. -/
theorem tokenize (h : Plays l tokens e) :
    ∃ l', l.tokenize = (if tokens.any (·.kind = .finish) then .ok tokens else .error e, l') ∧
      Plays l' [] e ∧ l'.last = tokens.getLast?.or l.last := by
  induction h with
  | @stop l l' e hnext =>
    obtain ⟨hagain, hlast, -⟩ := next_of_error hnext
    exact ⟨l', tokenize_of_error hnext, .stop hagain, hlast⟩
  | @token l l' token tokens e hnext hrest ih =>
    have hlast := last_of_next hnext
    by_cases hk : token.kind = .finish
    · obtain rfl := (Plays.token hnext hrest).eq_nil_of_finish hk
      refine ⟨l', ?_, hrest, hlast⟩
      rw [tokenize_of_finish hnext hk]
      simp [hk]
    · obtain ⟨l'', htokenize, hstopped, hlast'⟩ := ih
      refine ⟨l'', ?_, hstopped, ?_⟩
      · rw [tokenize_of_next hnext hk, htokenize]
        simp only [List.any_cons, hk, decide_false, Bool.false_or]
        split <;> rfl
      · rw [hlast', hlast]
        cases tokens <;> simp [List.getLast?_cons]

end Plays

/-! ## Calls -/

/-- What a caller asks a lexer for. A mode that is to be set may be missing. -/
inductive Call where
  | next
  | tokenize
  | setMode (mode : Option Mode)

inductive CallFault where
  | lexical (e : LexError)
  | missing (part : Missing)
deriving DecidableEq

def answer (l : Lexer) : Call → Except CallFault (List Token) × Lexer
  | .next =>
    match l.next with
    | (.ok token, l) => (.ok [token], l)
    | (.error e, l) => (.error (.lexical e), l)
  | .tokenize =>
    match l.tokenize with
    | (.ok tokens, l) => (.ok tokens, l)
    | (.error e, l) => (.error (.lexical e), l)
  | .setMode mode =>
    match required .mode mode with
    | .ok mode => (.ok [], l.setMode mode)
    | .error part => (.error (.missing part), l)

structure Script where
  tokens : List Token
  error : LexError

/-- Answers a call out of a script of which some tokens are used. There is no lexer in this any
more, and no mode: how many tokens are used is all that is kept. -/
def Script.answer (script : Script) (used : Nat) : Call → Except CallFault (List Token) × Nat
  | .next =>
    match script.tokens[used]? with
    | some token => (.ok [token], used + 1)
    | none => (.error (.lexical script.error), used)
  | .tokenize =>
    let ahead := script.tokens.drop used
    (if ahead.any (·.kind = .finish) then .ok ahead else .error (.lexical script.error),
      script.tokens.length)
  | .setMode (some _) => (.ok [], used)
  | .setMode none => (.error (.missing .mode), used)

/-- A lexer that has given so many tokens of a script. What it gives next and what it gave last
follow from their number alone. -/
structure Follows (script : Script) (l : Lexer) (used : Nat) : Prop where
  ahead : Plays l (script.tokens.drop used) script.error
  last : l.last = (script.tokens.take used).getLast?

theorem Follows.answer {script : Script} {used : Nat} (h : Follows script l used) (call : Call) :
    (l.answer call).1 = (script.answer used call).1 ∧
      Follows script (l.answer call).2 (script.answer used call).2 := by
  obtain ⟨hplays, hlast⟩ := h
  cases call with
  | next =>
    by_cases hused : used < script.tokens.length
    · rw [List.drop_eq_getElem_cons hused] at hplays
      obtain ⟨l', hnext, hrest, hlast'⟩ := hplays.next_of_cons
      simp only [Lexer.answer, hnext, Script.answer, List.getElem?_eq_getElem hused]
      refine ⟨trivial, hrest, ?_⟩
      rw [hlast', List.take_add_one, List.getElem?_eq_getElem hused, Option.toList_some,
        List.getLast?_concat]
    · have hnone : script.tokens[used]? = none := by simpa using hused
      rw [List.drop_eq_nil_of_le (by omega)] at hplays
      obtain ⟨l', hnext, hstopped, hlast'⟩ := hplays.next_of_nil
      simp only [Lexer.answer, hnext, Script.answer, hnone]
      refine ⟨trivial, ?_, hlast'.trans hlast⟩
      rwa [List.drop_eq_nil_of_le (by omega)]
  | tokenize =>
    obtain ⟨l', htokenize, hstopped, hlast'⟩ := hplays.tokenize
    -- All tokens are used up, whether or not they are handed out.
    have hfollows : Follows script l' script.tokens.length := by
      refine ⟨by rwa [List.drop_length], ?_⟩
      rw [hlast', hlast, List.take_length, ← List.getLast?_append, List.take_append_drop]
    cases hend : (script.tokens.drop used).any (·.kind = .finish) with
    | true =>
      rw [hend] at htokenize
      simp only [Lexer.answer, htokenize, Script.answer, hend, if_true]
      exact ⟨trivial, hfollows⟩
    | false =>
      rw [hend] at htokenize
      simp only [Lexer.answer, htokenize, Script.answer, hend, Bool.false_eq_true, if_false]
      exact ⟨trivial, hfollows⟩
  | setMode mode =>
    cases mode with
    | none => exact ⟨rfl, hplays, hlast⟩
    | some mode => exact ⟨rfl, hplays.setMode mode, hlast⟩

/-- A lexer that has met an error and stays where it was met. -/
def Stopped (e : LexError) (l : Lexer) : Prop := Plays l [] e ∧ l.place = e.place

theorem stopped_of_error (h : l.next = (.error e, l')) : Stopped e l' := by
  obtain ⟨hagain, -, hplace⟩ := next_of_error h
  exact ⟨.stop hagain, hplace⟩

theorem stopped_of_tokenize (l : Lexer) :
    ∀ {l' : Lexer}, l.tokenize = (.error e, l') → Stopped e l' := by
  induction l using Lexer.induction with
  | step l ih =>
    intro l' h
    cases hnext : l.next with
    | mk r l₁ =>
    cases r with
    | error e' =>
      rw [tokenize_of_error hnext] at h
      obtain ⟨rfl, rfl⟩ : e' = e ∧ l₁ = l' := by simpa using h
      exact stopped_of_error hnext
    | ok token =>
      by_cases hk : token.kind = .finish
      · rw [tokenize_of_finish hnext hk] at h
        exact absurd h (by simp)
      · rw [tokenize_of_next hnext hk] at h
        obtain ⟨herror, hleft⟩ := Prod.mk.inj h
        exact ih token l₁ hnext hk (Prod.ext (map_eq_error_iff.1 herror) hleft)

theorem stopped_of_answer {call : Call} (h : (l.answer call).1 = .error (.lexical e)) :
    Stopped e (l.answer call).2 := by
  cases call with
  | next =>
    cases hnext : l.next with
    | mk r l' =>
    cases r with
    | ok token => exact absurd h (by simp [Lexer.answer, hnext])
    | error e' =>
      simp only [Lexer.answer, hnext] at h ⊢
      cases h
      exact stopped_of_error hnext
  | tokenize =>
    cases htokenize : l.tokenize with
    | mk r l' =>
    cases r with
    | ok tokens => exact absurd h (by simp [Lexer.answer, htokenize])
    | error e' =>
      simp only [Lexer.answer, htokenize] at h ⊢
      cases h
      exact stopped_of_tokenize l htokenize
  | setMode mode => cases mode <;> exact absurd h (by simp [Lexer.answer, required])

theorem Stopped.answer (h : Stopped e l) (call : Call) : Stopped e (l.answer call).2 := by
  obtain ⟨hplays, hplace⟩ := h
  cases call with
  | next =>
    obtain ⟨l', hnext, -⟩ := hplays.next_of_nil
    simp only [Lexer.answer, hnext]
    exact stopped_of_error hnext
  | tokenize =>
    obtain ⟨l', hnext, -⟩ := hplays.next_of_nil
    simp only [Lexer.answer, tokenize_of_error hnext]
    exact stopped_of_error hnext
  | setMode mode =>
    cases mode with
    | none => exact ⟨hplays, hplace⟩
    | some mode => exact ⟨hplays.setMode mode, hplace⟩

theorem Plays.front_kind (h : Plays l tokens e) :
    ∀ front last, tokens = front ++ [last] → ∀ token ∈ front, token.kind ≠ .finish := by
  induction h with
  | stop _ =>
    intro front last heq
    exact absurd heq (by simp)
  | @token l l' token tokens e hnext hrest ih =>
    intro front last heq token' hmem hk
    cases front with
    | nil => exact absurd hmem (by simp)
    | cons first front =>
      obtain ⟨rfl, htail⟩ := List.cons.inj heq
      rcases List.mem_cons.1 hmem with rfl | hlater
      · have hnil := (Plays.token hnext hrest).eq_nil_of_finish hk
        exact absurd (htail.symm.trans hnil) (by simp)
      · exact ih front last htail token' hlater hk

/-- For every template there are tokens, the end token at most behind all others, and an error, so
that whatever calls are made, in any order and after failures, a lexer answers as if it read them
off: one token for a call, all that are left if the end token is among them, and nothing but the
error once they are used up. The token given last is the last one used, the mode has no part in it,
and from the first error on the place is that of the error. -/
theorem replays_script (s : String) : ∃ script : Script,
    (∀ front last, script.tokens = front ++ [last] → ∀ token ∈ front, token.kind ≠ .finish) ∧
    ∀ calls : List Call,
      let called := replies answer (ofText s) calls
      let read := replies script.answer 0 calls
      called.1 = read.1 ∧
        called.2.last = (script.tokens.take read.2).getLast? ∧
        ∀ e, .error (.lexical e) ∈ called.1 →
          e = script.error ∧ called.2.place = script.error.place := by
  obtain ⟨tokens, error, hplays⟩ := exists_plays (ofText s)
  refine ⟨⟨tokens, error⟩, hplays.front_kind, fun calls => ?_⟩
  have hstart : Follows ⟨tokens, error⟩ (ofText s) 0 := ⟨hplays, rfl⟩
  obtain ⟨hanswers, hfollows⟩ := replies_agree (fun _ _ call h => h.answer call) hstart calls
  refine ⟨hanswers, hfollows.last, fun e he => ?_⟩
  have hstopped : Stopped e (replies answer (ofText s) calls).2 :=
    replies_latch (fun _ call h => h.answer call) (fun _ _ h => stopped_of_answer h) he
  obtain rfl : error = e := hfollows.ahead.eq_of_stop hstopped.1
  exact ⟨rfl, hstopped.2⟩

-- The text in front of the escape is read in vain, and it is not read again.
example :
    (replies answer (ofText "\x7b\x7da\\n") [.next, .next, .setMode (some .tag), .next]).1 =
      [.ok [⟨.tag, "\x7b\x7d", ⟨0, 1, 1⟩⟩], .error (.lexical ⟨.illegalEscape, ⟨3, 1, 4⟩⟩), .ok [],
        .error (.lexical ⟨.illegalEscape, ⟨3, 1, 4⟩⟩)] := by
  decide +kernel

end Lexer

end Stencil
