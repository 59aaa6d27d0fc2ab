import Stencil.Proofs.Node.Derivation
import Stencil.Proofs.Token.Replay

/-!
# What a parser hands out

A parser keeps its lexer, so a request after an error reads on behind the point where the error was
met. If that was a tag, there may be a document behind it, and the parser hands it out though it is
not that of the template. `Stops depth tokens back` says that reading stops at a tag and what is
behind it. A parser never hands out two documents, and the one that it can hand out is the first
that stands behind stops; it is that of the template exactly if reading stops nowhere before it
(`Parser.handsOut_own_iff`).
-/

set_option autoImplicit false

namespace Stencil

open Relation (ReflTransGen TransGen)

/-- Reading tokens, with so many loops open, stops at a tag: it is none of the grammar, or it ends a
loop where none is open. The last argument is what is left behind that tag, where a parser goes on
that is asked again. -/
inductive Stops : Nat → List Token → List Token → Prop
  | stop {depth : Nat} {token : Token} {back : List Token} (hk : token.kind = .tag)
      (h : ∀ item, (Piece.tag token.value.toList).Reads item →
        depth + item.opens < item.closes) : Stops depth (token :: back) back
  | skip {depth : Nat} {token : Token} {piece : Piece} {item : Item} {tokens back : List Token}
      (hp : token.piece? = some piece) (hr : piece.Reads item)
      (hfits : item.closes ≤ depth + item.opens)
      (h : Stops (depth + item.opens - item.closes) tokens back) :
      Stops depth (token :: tokens) back

namespace Stops

variable {depth : Nat} {token : Token} {tokens back : List Token}

theorem suffix (h : Stops depth tokens back) : back <:+ tokens := by
  induction h with
  | stop _ _ => exact List.suffix_cons _ _
  | skip _ _ _ _ ih => exact ih.trans (List.suffix_cons _ _)

theorem not_of_finish (hk : token.kind = .finish) : ¬ Stops depth (token :: tokens) back := by
  intro h
  cases h with
  | stop htag _ => exact absurd (hk.symm.trans htag) (by simp)
  | skip hp _ _ _ => exact absurd hp (by simp [Token.piece?, hk])

theorem cons_iff {piece : Piece} {item : Item} (hp : token.piece? = some piece)
    (hr : piece.Reads item) (hfits : item.closes ≤ depth + item.opens) :
    Stops depth (token :: tokens) back ↔
      Stops (depth + item.opens - item.closes) tokens back := by
  refine ⟨fun h => ?_, .skip hp hr hfits⟩
  cases h with
  | stop hk h =>
    have hpiece : Piece.tag token.value.toList = piece := by
      simpa [Token.piece?, hk] using hp
    exact absurd (h item (hpiece ▸ hr)) (by omega)
  | skip hp' hr' hfits' h =>
    obtain rfl := Option.some.inj (hp.symm.trans hp')
    obtain rfl := hr.unique hr'
    exact h

theorem unique {back' : List Token} (h : Stops depth tokens back)
    (h' : Stops depth tokens back') : back = back' := by
  induction h with
  | @stop depth token back hk h =>
    cases h' with
    | stop _ _ => rfl
    | skip hp hr hfits _ =>
      obtain rfl : Piece.tag token.value.toList = _ := by
        simpa [Token.piece?, hk] using hp
      exact absurd (h _ hr) (by omega)
  | skip hp hr hfits _ ih => exact ih ((cons_iff hp hr hfits).1 h')

theorem not_balanced (h : Stops depth tokens back) :
    ∀ items, Listed tokens items → ¬ Balanced depth items := by
  induction h with
  | @stop depth token back hk h =>
    intro items hlisted hbalanced
    have hp : token.piece? = some (.tag token.value.toList) := by simp [Token.piece?, hk]
    rw [Listed, List.filterMap_cons_some hp, List.forall₂_cons_left_iff] at hlisted
    obtain ⟨item, rest, hitem, -, rfl⟩ := hlisted
    have hfits := (balanced_cons_iff.1 hbalanced).1
    have hstop := h item hitem
    omega
  | @skip depth token piece item tokens back hp hr _ _ ih =>
    intro items hlisted hbalanced
    rw [Listed, List.filterMap_cons_some hp, List.forall₂_cons_left_iff] at hlisted
    obtain ⟨item', rest, hitem, hrest, rfl⟩ := hlisted
    obtain rfl := hr.unique hitem
    exact ih rest hrest (balanced_cons_iff.1 hbalanced).2

end Stops

/-! ## Reading up to a stop -/

/-- Reading ends behind the tag at which it stops, or else it has used up the tokens. A failed
request leaves the lexer behind that tag, and this is where the next one goes on. -/
theorem parseFrom_of_plays {l : Lexer} {tokens : List Token} {e : LexError}
    (h : l.Plays tokens e) : ∀ (outer : List OpenLoop) (nodes : List Node),
      (∃ back fault l', Stops outer.length tokens back ∧
        parseFrom l outer nodes = (.error fault, l') ∧ l'.Plays back e) ∨
      (∀ back, ¬ Stops outer.length tokens back) ∧
        (parseFrom l outer nodes).2.Plays [] e := by
  induction h with
  | stop hnext =>
    intro outer nodes
    refine .inr ⟨fun back hstops => (nomatch hstops), ?_⟩
    rw [parseFrom_of_error hnext]
    exact .stop (Lexer.next_of_error hnext).1
  | @token l l' token tokens e hnext hrest ih =>
    intro outer nodes
    obtain ⟨kind, value, place⟩ := token
    cases kind with
    | finish =>
      obtain rfl := (Lexer.Plays.token hnext hrest).eq_nil_of_finish rfl
      refine .inr ⟨fun back => Stops.not_of_finish rfl, ?_⟩
      rw [parseFrom_of_finish hnext]
      split
      · exact hrest
      · exact hrest
    | text =>
      have hcons (back : List Token) :
          Stops outer.length (⟨.text, value, place⟩ :: tokens) back ↔
            Stops outer.length tokens back :=
        Stops.cons_iff rfl (.text value.toList) (Nat.zero_le _)
      simp only [hcons, parseFrom_of_text hnext]
      exact ih outer _
    | tag =>
      rw [parseFrom_of_tag hnext]
      cases htag : Tag.ofChars value.toList with
      | error fault =>
        refine .inl ⟨tokens, _, l', .stop rfl ?_, rfl, hrest⟩
        intro item hitem
        cases hitem with
        | tag hgrammar =>
          rw [Tag.ofChars_eq_ok_iff.2 hgrammar] at htag
          exact absurd htag (by simp)
      | ok t =>
        have hitem := Piece.Reads.tag (Tag.ofChars_eq_ok_iff.1 htag)
        have hcons (hfits : (Item.tag t).closes ≤ outer.length + (Item.tag t).opens)
            (back : List Token) :
            Stops outer.length (⟨.tag, value, place⟩ :: tokens) back ↔
              Stops (outer.length + (Item.tag t).opens - (Item.tag t).closes) tokens back :=
          Stops.cons_iff rfl hitem hfits
        cases t with
        | echo elements =>
          simp only [hcons (Nat.zero_le _)]
          exact ih outer _
        | loop head =>
          simp only [hcons (Nat.zero_le _)]
          exact ih (⟨head, nodes⟩ :: outer) []
        | close =>
          cases outer with
          | nil =>
            refine .inl ⟨tokens, _, l', .stop rfl fun item hitem' => ?_, rfl, hrest⟩
            rw [hitem'.unique hitem]
            exact Nat.zero_lt_one
          | cons o outer =>
            simp only [hcons (Nat.succ_le_succ (Nat.zero_le _))]
            exact ih outer _

theorem Lexer.Plays.ahead_iff {l : Lexer} {tokens : List Token} {e : LexError}
    (h : l.Plays tokens e) {items : List Item} :
    l.Ahead items ↔ tokens.any (·.kind = .finish) ∧ Listed tokens items := by
  obtain ⟨l', htokenize, -⟩ := h.tokenize
  unfold Lexer.Ahead
  rw [htokenize]
  cases tokens.any (·.kind = .finish) with
  | true => simp
  | false => simp

/-! ## Requests -/

def Whole (tokens : List Token) (d : Node) : Prop :=
  tokens.any (·.kind = .finish) ∧
    ∃ items nodes, Listed tokens items ∧ Derives items nodes ∧ d = .document nodes

theorem Whole.not_stops {tokens back : List Token} {d : Node} (h : Whole tokens d) :
    ¬ Stops 0 tokens back := by
  obtain ⟨-, items, nodes, hlisted, hderives, -⟩ := h
  intro hstops
  exact hstops.not_balanced items hlisted (exists_derives_iff.1 ⟨nodes, hderives⟩)

namespace Parser

variable {p : Parser} {tokens back : List Token} {e : LexError} {d : Node}

inductive Request where
  | parse
  | documentNode

def answer (p : Parser) : Request → Except ParseError Node × Parser
  | .parse => p.parse
  | .documentNode => p.documentNode

theorem parse_eq_ok_iff_whole (h : p.lexer.Plays tokens e) :
    p.parse.1 = .ok d ↔ Whole tokens d := by
  have hread : p.parse.1 = .ok d ↔
      ∃ nodes, (parseFrom p.lexer [] []).1 = .ok nodes ∧ d = .document nodes := by
    unfold parse
    rcases parseFrom p.lexer [] [] with ⟨_ | nodes, l⟩
    · simp
    · simp [eq_comm]
  rw [hread]
  simp only [parseFrom_eq_ok_iff, h.ahead_iff, assemble_eq_some_iff]
  constructor
  · rintro ⟨nodes, ⟨items, ⟨hend, hlisted⟩, hderives⟩, hd⟩
    exact ⟨hend, items, nodes, hlisted, hderives, hd⟩
  · rintro ⟨hend, items, nodes, hlisted, hderives, hd⟩
    exact ⟨nodes, ⟨items, ⟨hend, hlisted⟩, hderives⟩, hd⟩

theorem plays_parse_of_stops (h : p.lexer.Plays tokens e) (hstop : Stops 0 tokens back) :
    p.parse.2.lexer.Plays back e := by
  rcases parseFrom_of_plays h [] [] with ⟨back', fault, l', hstop', hread, hl'⟩ | ⟨hnone, -⟩
  · obtain rfl := hstop.unique hstop'
    rw [parse, hread]
    exact hl'
  · exact absurd hstop (hnone back)

theorem plays_parse_of_not_stops (h : p.lexer.Plays tokens e)
    (hnone : ∀ back, ¬ Stops 0 tokens back) : p.parse.2.lexer.Plays [] e := by
  rcases parseFrom_of_plays h [] [] with ⟨back, fault, l', hstop, -⟩ | ⟨-, hl'⟩
  · exact absurd hstop (hnone back)
  · unfold parse
    generalize parseFrom p.lexer [] [] = read at hl'
    obtain ⟨_ | nodes, l'⟩ := read
    · exact hl'
    · exact hl'

theorem document_parse (p : Parser) :
    p.parse.2.document = match p.parse.1 with
      | .ok d => some d
      | .error _ => p.document := by
  unfold parse
  rcases parseFrom p.lexer [] [] with ⟨_ | nodes, l⟩ <;> rfl

/-- A document of the tokens or of what is left of them behind stops. A request that fails leaves
the parser behind one stop more, so any number of them can be passed. -/
def Offered (tokens : List Token) (d : Node) : Prop :=
  ∃ back, ReflTransGen (Stops 0) tokens back ∧ Whole back d

/-- A parser of some tokens: it stands at their start, behind stops or at their end, and the
document that it keeps is one that they offer. -/
structure Within (tokens : List Token) (e : LexError) (p : Parser) : Prop where
  ahead : ∃ back, (ReflTransGen (Stops 0) tokens back ∨ back = []) ∧ p.lexer.Plays back e
  document : ∀ d ∈ p.document, Offered tokens d

theorem Within.offered_of_parse (h : Within tokens e p) (hd : p.parse.1 = .ok d) :
    Offered tokens d := by
  obtain ⟨back, hback, hl⟩ := h.ahead
  have hwhole := (parse_eq_ok_iff_whole hl).1 hd
  rcases hback with hstops | rfl
  · exact ⟨back, hstops, hwhole⟩
  · exact absurd hwhole.1 (by simp)

theorem Within.parse (h : Within tokens e p) : Within tokens e p.parse.2 := by
  obtain ⟨back, hback, hl⟩ := h.ahead
  constructor
  · by_cases hstop : ∃ back', Stops 0 back back'
    · obtain ⟨back', hstop⟩ := hstop
      rcases hback with hstops | rfl
      · exact ⟨back', .inl (hstops.tail hstop), plays_parse_of_stops hl hstop⟩
      · exact nomatch hstop
    · exact ⟨[], .inr rfl, plays_parse_of_not_stops hl (not_exists.1 hstop)⟩
  · intro d hd
    rw [document_parse] at hd
    cases hanswer : p.parse.1 with
    | error fault =>
      rw [hanswer] at hd
      exact h.document d hd
    | ok d' =>
      rw [hanswer] at hd
      cases hd
      exact h.offered_of_parse hanswer

theorem Within.answer (h : Within tokens e p) (request : Request) :
    Within tokens e (p.answer request).2 ∧
      ∀ d, (p.answer request).1 = .ok d → Offered tokens d := by
  cases request with
  | parse => exact ⟨h.parse, fun d hd => h.offered_of_parse hd⟩
  | documentNode =>
    cases hdocument : p.document with
    | none =>
      simp only [Parser.answer, documentNode, hdocument]
      exact ⟨h.parse, fun d hd => h.offered_of_parse hd⟩
    | some document =>
      simp only [Parser.answer, documentNode, hdocument]
      refine ⟨h, fun d hd => ?_⟩
      cases hd
      exact h.document document hdocument

/-- A document behind stops is handed out if the parser is asked often enough. Every request that
fails takes the parser over one stop, so as many are needed as there are stops in front. -/
theorem exists_requests (hstops : ReflTransGen (Stops 0) tokens back) (hwhole : Whole back d) :
    ∀ {p : Parser}, p.lexer.Plays tokens e →
      ∃ requests, .ok d ∈ (replies answer p requests).1 := by
  induction hstops using ReflTransGen.head_induction_on with
  | refl =>
    intro p hl
    have hd := (parse_eq_ok_iff_whole hl).2 hwhole
    exact ⟨[.parse], List.mem_singleton.2 hd.symm⟩
  | head hstop _ ih =>
    intro p hl
    obtain ⟨requests, hmem⟩ := ih (plays_parse_of_stops hl hstop)
    exact ⟨.parse :: requests, List.mem_cons_of_mem _ hmem⟩

theorem suffix_of_stops (h : ReflTransGen (Stops 0) tokens back) : back <:+ tokens := by
  induction h with
  | refl => exact List.suffix_refl _
  | tail _ hstop ih => exact hstop.suffix.trans ih

theorem any_finish_of_suffix (h : back <:+ tokens) (hend : back.any (·.kind = .finish)) :
    tokens.any (·.kind = .finish) := by
  obtain ⟨token, hmem, hk⟩ := List.any_eq_true.1 hend
  exact List.any_eq_true.2 ⟨token, h.subset hmem, hk⟩

theorem tokenize_iff_of_plays {s : String} (h : (Lexer.ofText s).Plays tokens e)
    {tokens' : List Token} :
    tokenize s = .ok tokens' ↔ tokens.any (·.kind = .finish) ∧ tokens = tokens' := by
  obtain ⟨l', htokenize, -⟩ := h.tokenize
  rw [Stencil.tokenize, htokenize]
  cases tokens.any (·.kind = .finish) with
  | true => simp
  | false => simp

/-- Some requests to a parser of a template, in some order and going on after errors, have a
document for an answer. -/
def HandsOut (s : String) (d : Node) : Prop :=
  ∃ requests, .ok d ∈ (replies answer (ofText s) requests).1

theorem handsOut_iff {s : String} :
    HandsOut s d ↔ ∃ tokens, tokenize s = .ok tokens ∧ Offered tokens d := by
  obtain ⟨tokens, e, hl⟩ := Lexer.exists_plays (Lexer.ofText s)
  simp only [tokenize_iff_of_plays hl]
  constructor
  · rintro ⟨requests, hmem⟩
    have hstart : Within tokens e (ofText s) :=
      ⟨⟨tokens, .inl .refl, hl⟩, fun d hd => absurd hd (by simp [ofText])⟩
    have hanswers : ∀ a ∈ (replies answer (ofText s) requests).1, ∀ d, a = .ok d →
        Offered tokens d :=
      replies_forall (fun _ request h => (h.answer request).1)
        (fun _ request h => (h.answer request).2) hstart requests
    obtain ⟨back, hstops, hwhole⟩ := hanswers _ hmem d rfl
    have hend := any_finish_of_suffix (suffix_of_stops hstops) hwhole.1
    exact ⟨tokens, ⟨hend, rfl⟩, back, hstops, hwhole⟩
  · rintro ⟨_, ⟨-, rfl⟩, back, hstops, hwhole⟩
    exact exists_requests hstops hwhole hl

theorem parse_ofText (s : String) : (ofText s).parse.1 = Stencil.parse s := by
  unfold parse Stencil.parse
  rw [show (ofText s).lexer = Lexer.ofText s from rfl]
  rcases parseFrom (Lexer.ofText s) [] [] with ⟨_ | nodes, l⟩ <;> rfl

theorem parse_eq_ok_iff_tokens {s : String} :
    Stencil.parse s = .ok d ↔ ∃ tokens, tokenize s = .ok tokens ∧ Whole tokens d := by
  obtain ⟨tokens, e, hl⟩ := Lexer.exists_plays (Lexer.ofText s)
  simp only [tokenize_iff_of_plays hl, ← parse_ofText, parse_eq_ok_iff_whole (p := ofText s) hl]
  constructor
  · exact fun h => ⟨tokens, ⟨h.1, rfl⟩, h⟩
  · rintro ⟨_, ⟨-, rfl⟩, h⟩
    exact h

/-- Tokens offer one document at most, since reading stops in one way and nothing is derived from
tokens at which it stops. -/
theorem Offered.unique {d' : Node} (h : Offered tokens d) (h' : Offered tokens d') : d = d' := by
  obtain ⟨back, hstops, hwhole⟩ := h
  obtain ⟨back', hstops', hwhole'⟩ := h'
  have hback : back = back' := by
    rcases ReflTransGen.total_of_right_unique (fun _ _ _ h h' => h.unique h') hstops hstops' with
      hmore | hmore
    · rcases hmore.cases_head with heq | ⟨_, hstop, -⟩
      · exact heq
      · exact absurd hstop hwhole.not_stops
    · rcases hmore.cases_head with heq | ⟨_, hstop, -⟩
      · exact heq.symm
      · exact absurd hstop hwhole'.not_stops
  subst hback
  obtain ⟨-, items, nodes, hlisted, hderives, rfl⟩ := hwhole
  obtain ⟨-, items', nodes', hlisted', hderives', rfl⟩ := hwhole'
  obtain rfl := hlisted.unique hlisted'
  rw [hderives.unique hderives']

/-- A parser hands out nothing but the document of its template exactly if no document stands behind
the tags at which reading stops. In any case it hands out those documents that its tokens have,
from the start or behind such tags, and there is one at most. -/
theorem handsOut_own_iff (s : String) :
    ((∀ d, HandsOut s d → Stencil.parse s = .ok d) ↔
      ∀ tokens back d, tokenize s = .ok tokens → TransGen (Stops 0) tokens back →
        ¬ Whole back d) ∧
    (∀ d, HandsOut s d ↔ ∃ tokens back, tokenize s = .ok tokens ∧
      ReflTransGen (Stops 0) tokens back ∧ Whole back d) ∧
    ∀ d d', HandsOut s d → HandsOut s d' → d = d' := by
  refine ⟨⟨?_, ?_⟩, fun d => ?_, ?_⟩
  · intro hown tokens back d htokens hstops hwhole
    have hout : HandsOut s d :=
      handsOut_iff.2 ⟨tokens, htokens, back, hstops.to_reflTransGen, hwhole⟩
    obtain ⟨tokens', htokens', hwhole'⟩ := parse_eq_ok_iff_tokens.1 (hown d hout)
    obtain rfl := Except.ok.inj (htokens.symm.trans htokens')
    obtain ⟨back', hstop, -⟩ := TransGen.head'_iff.1 hstops
    exact hwhole'.not_stops hstop
  · intro hnone d hout
    obtain ⟨tokens, htokens, back, hstops, hwhole⟩ := handsOut_iff.1 hout
    rcases Relation.reflTransGen_iff_eq_or_transGen.1 hstops with rfl | hstops
    · exact parse_eq_ok_iff_tokens.2 ⟨_, htokens, hwhole⟩
    · exact absurd hwhole (hnone tokens back d htokens hstops)
  · rw [handsOut_iff]
    exact exists_congr fun tokens => exists_and_left.symm
  · intro d d' hout hout'
    obtain ⟨tokens, htokens, hoffered⟩ := handsOut_iff.1 hout
    obtain ⟨tokens', htokens', hoffered'⟩ := handsOut_iff.1 hout'
    obtain rfl := Except.ok.inj (htokens.symm.trans htokens')
    exact hoffered.unique hoffered'

/-- An end that ends no loop is an error, and the next request hands out the text behind it. The
template as a whole has no document, and still the parser gives one for it. -/
theorem not_handsOut_own :
    ¬ ∀ d, HandsOut "\x7b$END$\x7dx" d → Stencil.parse "\x7b$END$\x7dx" = .ok d := by
  let back : List Token := [⟨.text, "x", ⟨7, 1, 8⟩⟩, ⟨.finish, "", ⟨8, 1, 9⟩⟩]
  let tokens : List Token := ⟨.tag, "\x7b$END$\x7d", ⟨0, 1, 1⟩⟩ :: back
  have hscans : Scans Place.start "\x7b$END$\x7dx".toList tokens :=
    .tag ⟨"$END$".toList, rfl, by decide⟩
      (.text (.plain rfl .nil) (by simp) rfl rfl (.finish _))
  have htokens : tokenize "\x7b$END$\x7dx" = .ok tokens := tokenize_eq_ok_iff.2 hscans
  have hclose : (Piece.tag "\x7b$END$\x7d".toList).Reads (.tag .close) :=
    .tag (Tag.ofChars_eq_ok_iff.1 rfl)
  have hstop : Stops 0 tokens back := .stop rfl fun item hitem => by
    rw [hitem.unique hclose]
    exact Nat.zero_lt_one
  have hwhole : Whole back (.document [.text "x"]) :=
    ⟨rfl, [.text "x"], [.text "x"], .cons (.text ['x']) .nil, .text .nil, rfl⟩
  intro hown
  have hparse := hown _ (handsOut_iff.2 ⟨tokens, htokens, back, .single hstop, hwhole⟩)
  obtain ⟨tokens', htokens', hwhole'⟩ := parse_eq_ok_iff_tokens.1 hparse
  obtain rfl := Except.ok.inj (htokens.symm.trans htokens')
  exact hwhole'.not_stops hstop

end Parser

end Stencil
