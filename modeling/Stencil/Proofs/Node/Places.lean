import Stencil.Proofs.Node.Refusal
import Stencil.Proofs.Node.Resumption
import Stencil.Proofs.Token.Places

/-!
# Where a template is refused

A parser hands on the place of the token that does not fit, or the fault of its lexer, and it may be
asked again behind that. Whatever it is asked, the place of an error is one of the template, and a
tag that does not fit stands there with its opening brace (`Lexer.Reads.tells_of_parseFrom`).
`places_located` puts this beside the places that a lexer tells.
-/

set_option autoImplicit false

namespace Stencil

/-- What stands where a template is refused: the tag that does not fit, or nothing where loops are
open at the end. -/
inductive ParseFault.Meets : ParseFault → List Char → Prop
  | tag {fault : ParseFault} {tag back : List Char} (he : Enclosed tag) (hf : fault.Of tag) :
      Meets fault (tag ++ back)
  | unclosedLoops {count : Nat} : Meets (.unclosedLoops count) []

namespace ParseError

def place : ParseError → Place
  | .lexical e => e.place
  | .structural _ place => place

def Meets : ParseError → List Char → Prop
  | .lexical e => e.fault.Meets
  | .structural fault _ => fault.Meets

structure Tells (text : List Char) (e : ParseError) : Prop where
  inside : e.place.In text
  meets : e.Meets (text.drop e.place.offset)

end ParseError

theorem Token.Writes.of_tag {token : Token} {raw : List Char} (h : token.Writes raw)
    (hk : token.kind = .tag) : Enclosed raw ∧ token.value.toList = raw := by
  cases h with
  | finish => exact absurd hk (by simp)
  | tag he => exact ⟨he, String.toList_ofList⟩
  | text _ _ => exact absurd hk (by simp)

/-- Reading nodes leaves a lexer of the text, and if it fails, it tells where. The parser has no
places of its own: those of its faults are the lexer's, or those of the token that it refused. -/
theorem Lexer.Reads.tells_of_parseFrom {text : List Char} (l : Lexer) :
    ∀ (outer : List OpenLoop) (nodes : List Node), l.Reads text →
      (parseFrom l outer nodes).2.Reads text ∧
        ∀ e, (parseFrom l outer nodes).1 = .error e → e.Tells text := by
  -- Token by token: an error is that of the lexer, is met at this token, or comes later.
  induction l using Lexer.induction with
  | step l ih =>
    intro outer nodes h
    cases hnext : l.next with
    | mk r l' =>
    cases r with
    | error e =>
      have htells := h.tells_of_next_error hnext
      rw [parseFrom_of_error hnext]
      refine ⟨htells.reads, fun e' heq => ?_⟩
      cases heq
      obtain ⟨heplace, -, hmeets⟩ := htells.error e rfl
      have hplace : (ParseError.lexical e).place = l'.place := heplace
      constructor
      · rw [hplace]
        exact htells.reads.inside
      · rw [hplace, htells.reads.drop_eq]
        exact hmeets
    | ok token =>
      have htells := h.tells_of_next_ok hnext
      obtain ⟨hinside, -⟩ := htells.token _ rfl
      have hinside : token.place.In text := hinside token (List.mem_singleton.2 rfl)
      obtain ⟨raw, hdrop, hwrites, hfinish⟩ := h.exists_writes hnext
      by_cases hk : token.kind = .finish
      · obtain ⟨kind, value, place⟩ := token
        obtain rfl : kind = .finish := hk
        rw [parseFrom_of_finish hnext]
        split
        · exact ⟨htells.reads, fun e heq => absurd heq (by simp)⟩
        · refine ⟨htells.reads, fun e heq => ?_⟩
          cases heq
          refine ⟨hinside, ?_⟩
          show ParseFault.Meets _ (text.drop place.offset)
          rw [hdrop, hfinish rfl]
          exact .unclosedLoops
      · rw [parseFrom_of_next hnext hk]
        cases hattach : attach outer nodes token with
        | ok next => exact ih token l' hnext hk next.1 next.2 htells.reads
        | error fault =>
          refine ⟨htells.reads, fun e heq => ?_⟩
          cases heq
          obtain ⟨htag, hof⟩ := of_attach hattach
          obtain ⟨he, hvalue⟩ := hwrites.of_tag htag
          rw [hvalue] at hof
          refine ⟨hinside, ?_⟩
          show ParseFault.Meets fault (text.drop token.place.offset)
          rw [hdrop]
          exact .tag he hof

namespace Parser

theorem tells_of_parse {p : Parser} {text : List Char} (h : p.lexer.Reads text) :
    p.parse.2.lexer.Reads text ∧ ∀ e, p.parse.1 = .error e → e.Tells text := by
  have hread := Lexer.Reads.tells_of_parseFrom p.lexer [] [] h
  unfold parse
  generalize parseFrom p.lexer [] [] = read at hread
  obtain ⟨r, l⟩ := read
  cases r with
  | ok nodes => exact ⟨hread.1, fun e heq => absurd heq (by simp)⟩
  | error e =>
    refine ⟨hread.1, fun e' heq => ?_⟩
    cases heq
    exact hread.2 e rfl

theorem tells_of_answer {p : Parser} {text : List Char} (h : p.lexer.Reads text)
    (request : Request) : (p.answer request).2.lexer.Reads text ∧
      ∀ e, (p.answer request).1 = .error e → e.Tells text := by
  cases request with
  | parse => exact tells_of_parse h
  | documentNode =>
    cases hdocument : p.document with
    | none =>
      simp only [answer, documentNode, hdocument]
      exact tells_of_parse h
    | some document =>
      simp only [answer, documentNode, hdocument]
      exact ⟨h, fun e heq => absurd heq (by simp)⟩

end Parser

/-- The line and the column of a place are always those of the characters in front of it. This goes
for every place that is seen of a lexer, at any calls and behind those that failed: where it stands,
where its tokens start and where its faults are met; and none of them is in front of one that was
seen before. A bad escape is met at its backslash and an open tag at its brace. It goes as well for
every error of a parser, at any requests: a tag that does not fit starts at the place of the error,
and open loops are noticed at the end. -/
theorem places_located (s : String) :
    let text := trim s.toList
    (∀ calls : List Lexer.Call,
      let views := (replies Lexer.watch (Lexer.ofText s) calls).1
      let seen := (Lexer.ofText s).place :: views.flatMap Lexer.View.places
      (∀ p ∈ seen, p.In text) ∧ Place.Ordered seen ∧
        ∀ view ∈ views, ∀ e, view.answer = .error (.lexical e) →
          e.fault.Meets (text.drop e.place.offset)) ∧
    (∀ requests : List Parser.Request,
      ∀ reply ∈ (replies Parser.answer (Parser.ofText s) requests).1, ∀ e, reply = .error e →
        e.place.In text ∧ e.Meets (text.drop e.place.offset)) ∧
    ∀ e, parse s = .error e → e.place.In text ∧ e.Meets (text.drop e.place.offset) := by
  intro text
  have hstart : (Lexer.ofText s).Reads text := Lexer.reads_ofText s
  refine ⟨fun calls => ⟨?_, hstart.ordered_of_watch calls, ?_⟩, fun requests => ?_, fun e he => ?_⟩
  · intro p hp
    rcases List.mem_cons.1 hp with rfl | hlater
    · exact hstart.inside
    · obtain ⟨view, hview, hmem⟩ := List.mem_flatMap.1 hlater
      exact (hstart.tells_of_watch calls view hview).inside p hmem
  · intro view hview
    exact (hstart.tells_of_watch calls view hview).meets
  · have hanswers : ∀ reply ∈ (replies Parser.answer (Parser.ofText s) requests).1,
        ∀ e, reply = .error e → e.Tells text :=
      replies_forall (Q := fun p : Parser => p.lexer.Reads text)
        (fun _ request h => (Parser.tells_of_answer h request).1)
        (fun _ request h => (Parser.tells_of_answer h request).2) hstart requests
    intro reply hreply e heq
    have htells := hanswers reply hreply e heq
    exact ⟨htells.inside, htells.meets⟩
  · rw [← Parser.parse_ofText] at he
    have htells := (Parser.tells_of_parse (p := Parser.ofText s) hstart).2 e he
    exact ⟨htells.inside, htells.meets⟩

/-- A text of two lines, a tag, and a bad escape behind a letter: all tokens at once stop at the
escape, and so do one token more and the parser. -/
theorem places_located_escape :
    let s := "a\n\x7b$= 1 $\x7db\\n"
    let text := trim s.toList
    let views := (replies Lexer.watch (Lexer.ofText s) [.next, .tokenize, .next]).1
    let stop : Place := ⟨11, 2, 10⟩
    views.flatMap Lexer.View.places = [⟨0, 1, 1⟩, ⟨2, 2, 1⟩, stop, stop, stop, stop] ∧
      stop.In text ∧ Place.Ordered (Place.start :: views.flatMap Lexer.View.places) ∧
      parse s = .error (.lexical ⟨.illegalEscape, stop⟩) ∧
      LexFault.Meets .illegalEscape (text.drop 11) := by
  intro s text views stop
  have hplaces : views.flatMap Lexer.View.places =
      [⟨0, 1, 1⟩, ⟨2, 2, 1⟩, stop, stop, stop, stop] := by
    decide +kernel
  have hread : (parse s).map (fun _ => ()) = .error (.lexical ⟨.illegalEscape, stop⟩) := by
    decide +kernel
  have hparse : parse s = .error (.lexical ⟨.illegalEscape, stop⟩) := map_eq_error_iff.1 hread
  obtain ⟨hcalls, -, herror⟩ := places_located s
  obtain ⟨-, hordered, -⟩ := hcalls [.next, .tokenize, .next]
  obtain ⟨hinside, hmeets⟩ := herror _ hparse
  exact ⟨hplaces, hinside, hordered, hparse, hmeets⟩

end Stencil
