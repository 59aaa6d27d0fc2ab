import Mathlib.Data.List.Chain
import Stencil.Proofs.Token.Pieces

/-!
# The language of templates

`Lexemes cs` is the language of templates, told with no regard to spaces and texts: characters other
than an opening brace and a backslash, escapes of these two, and tags. The lexer accepts just this
language, and it loses nothing: the template is put together again from spaces and the slices that
its tokens are written with (`tokenize_slices`).
-/

set_option autoImplicit false

namespace Stencil

/-- One of the parts that the characters of a template are made of. This is the language that a
template must be of to have tokens, told without tokens and without trimming. -/
inductive Lexeme : List Char → Prop
  | plain {c : Char} (hbrace : c ≠ '{') (hslash : c ≠ '\\') : Lexeme [c]
  | escape {c : Char} (hc : c = '\\' ∨ c = '{') : Lexeme ['\\', c]
  | tag {inner : List Char} (hinner : '}' ∉ inner) : Lexeme ('{' :: (inner ++ ['}']))

def Lexemes (cs : List Char) : Prop :=
  ∃ parts : List (List Char), (∀ part ∈ parts, Lexeme part) ∧ parts.flatten = cs

/-! ## What is accepted -/

theorem isEscapable_eq_true_iff {c : Char} :
    Lexer.isEscapable c = true ↔ c = '\\' ∨ c = '{' := by
  simp [Lexer.isEscapable]

theorem isEscapable_eq_false_iff {c : Char} :
    Lexer.isEscapable c = false ↔ c ≠ '{' ∧ c ≠ '\\' := by
  rw [← Bool.not_eq_true, isEscapable_eq_true_iff, not_or, and_comm]

theorem not_isSpace_of_isEscapable {c : Char} (h : Lexer.isEscapable c = true) :
    isSpace c = false := by
  rcases isEscapable_eq_true_iff.1 h with rfl | rfl <;> decide

namespace Lexemes

theorem nil : Lexemes [] := ⟨[], by simp, rfl⟩

theorem cons {part cs : List Char} (hp : Lexeme part) : Lexemes cs → Lexemes (part ++ cs) := by
  rintro ⟨parts, hparts, rfl⟩
  exact ⟨part :: parts, List.forall_mem_cons.2 ⟨hp, hparts⟩, rfl⟩

theorem of_escaped {raw value cs : List Char} (h : Escaped raw value) (hcs : Lexemes cs) :
    Lexemes (raw ++ cs) := by
  induction h with
  | nil => exact hcs
  | @plain c _ _ hc _ ih =>
    obtain ⟨hbrace, hslash⟩ := isEscapable_eq_false_iff.1 hc
    have hpart : Lexeme [c] := .plain hbrace hslash
    simpa using cons hpart ih
  | @escape c _ _ hc _ ih =>
    have hpart : Lexeme ['\\', c] := .escape (isEscapable_eq_true_iff.1 hc)
    simpa using cons hpart ih

theorem of_scans {p : Place} {cs : List Char} {tokens : List Token} (h : Scans p cs tokens) :
    Lexemes cs := by
  induction h with
  | finish _ => exact .nil
  | @space _ c _ _ hc _ ih =>
    have hescapable : Lexer.isEscapable c = false := by
      by_contra h
      rw [Bool.not_eq_false] at h
      exact absurd hc (by simp [not_isSpace_of_isEscapable h])
    obtain ⟨hbrace, hslash⟩ := isEscapable_eq_false_iff.1 hescapable
    exact .cons (.plain hbrace hslash) ih
  | tag he _ ih =>
    obtain ⟨inner, rfl, hinner⟩ := he
    exact .cons (.tag hinner) ih
  | text hr _ _ _ _ ih => exact .of_escaped hr ih

end Lexemes

theorem Scans.exists_of_escaped {raw value cs : List Char} (h : Escaped raw value)
    (hc : cs.head?.all (· == '{')) (hcs : ∀ p, ∃ tokens, Scans p cs tokens) :
    ∀ p, ∃ tokens, Scans p (raw ++ cs) tokens := by
  -- Spaces in front are passed over, and all that is left then is one text.
  induction h with
  | nil => exact hcs
  | @plain c raw value hplain hr ih =>
    intro p
    by_cases hspace : isSpace c = true
    · obtain ⟨tokens, hscans⟩ := ih (p.next c)
      exact ⟨tokens, .space hspace hscans⟩
    · obtain ⟨tokens, hscans⟩ := hcs (p.after (c :: raw))
      exact ⟨_, .text (.plain hplain hr) (by simp) (by simpa using hspace) hc hscans⟩
  | @escape c raw value hescape hr _ =>
    intro p
    obtain ⟨tokens, hscans⟩ := hcs (p.after ('\\' :: c :: raw))
    exact ⟨_, .text (.escape hescape hr) (by simp) rfl hc hscans⟩

theorem exists_escaped_of_parts {parts : List (List Char)} (h : ∀ part ∈ parts, Lexeme part) :
    ∃ raw value cs, parts.flatten = raw ++ cs ∧ Escaped raw value ∧ cs.head?.all (· == '{') ∧
      ∀ p, ∃ tokens, Scans p cs tokens := by
  induction parts with
  | nil => exact ⟨[], [], [], rfl, .nil, rfl, fun p => ⟨_, .finish p⟩⟩
  | cons part parts ih =>
    obtain ⟨hpart, hparts⟩ := List.forall_mem_cons.1 h
    obtain ⟨raw, value, cs, hsplit, hr, hc, hcs⟩ := ih hparts
    rw [List.flatten_cons, hsplit]
    -- A character or an escape goes on with the text, a tag starts what comes behind an empty one.
    cases hpart with
    | @plain c hbrace hslash =>
      have hplain := isEscapable_eq_false_iff.2 ⟨hbrace, hslash⟩
      exact ⟨c :: raw, c :: value, cs, rfl, .plain hplain hr, hc, hcs⟩
    | @escape c hescape =>
      have hescape := isEscapable_eq_true_iff.2 hescape
      exact ⟨'\\' :: c :: raw, c :: value, cs, rfl, .escape hescape hr, hc, hcs⟩
    | @tag inner hinner =>
      refine ⟨[], [], '{' :: (inner ++ ['}']) ++ (raw ++ cs), rfl, .nil, rfl, fun p => ?_⟩
      obtain ⟨tokens, hscans⟩ := Scans.exists_of_escaped hr hc hcs (p.after _)
      exact ⟨_, .tag ⟨inner, rfl, hinner⟩ hscans⟩

theorem exists_scans_iff {cs : List Char} (p : Place) :
    (∃ tokens, Scans p cs tokens) ↔ Lexemes cs := by
  constructor
  · rintro ⟨tokens, h⟩
    exact .of_scans h
  · rintro ⟨parts, hparts, rfl⟩
    obtain ⟨raw, value, cs, hsplit, hr, hc, hcs⟩ := exists_escaped_of_parts hparts
    rw [hsplit]
    exact Scans.exists_of_escaped hr hc hcs p

/-! ## The slices of the tokens -/

/-- A token, the characters that it is written with, and the spaces before these. -/
structure Slice where
  gap : List Char
  raw : List Char
  token : Token

def Slice.chars (slice : Slice) : List Char := slice.gap ++ slice.raw

inductive Token.Writes : Token → List Char → Prop
  | finish {p : Place} : Writes ⟨.finish, String.ofList [], p⟩ []
  | tag {p : Place} {tag : List Char} (he : Enclosed tag) : Writes ⟨.tag, String.ofList tag, p⟩ tag
  | text {p : Place} {raw value : List Char} (hr : Escaped raw value)
      (hs : value.head?.any (!isSpace ·)) : Writes ⟨.text, String.ofList value, p⟩ raw

structure Sliced (p : Place) (cs : List Char) (tokens : List Token) (slices : List Slice) :
    Prop where
  tokens_eq : slices.map Slice.token = tokens
  chars_eq : slices.flatMap Slice.chars = cs
  gap : ∀ slice ∈ slices, ∀ c ∈ slice.gap, isSpace c = true
  writes : ∀ slice ∈ slices, slice.token.Writes slice.raw
  place : ∀ before slice after, slices = before ++ slice :: after →
    slice.token.place = p.after (before.flatMap Slice.chars ++ slice.gap)

namespace Place

@[simp] theorem offset_next (p : Place) (c : Char) : (p.next c).offset = p.offset + 1 := by
  unfold next
  split <;> rfl

@[simp] theorem offset_after (p : Place) (cs : List Char) :
    (p.after cs).offset = p.offset + cs.length := by
  induction cs generalizing p with
  | nil => rfl
  | cons c cs ih =>
    rw [show p.after (c :: cs) = (p.next c).after cs from rfl, ih, offset_next, List.length_cons]
    omega

end Place

namespace Sliced

variable {p : Place} {raw cs : List Char} {token : Token} {tokens : List Token}
  {slices : List Slice}

theorem cons (hplace : token.place = p) (hw : token.Writes raw)
    (h : Sliced (p.after raw) cs tokens slices) :
    Sliced p (raw ++ cs) (token :: tokens) (⟨[], raw, token⟩ :: slices) where
  tokens_eq := by rw [List.map_cons, h.tokens_eq]
  chars_eq := by rw [List.flatMap_cons, h.chars_eq]; rfl
  gap := List.forall_mem_cons.2 ⟨by simp, h.gap⟩
  writes := List.forall_mem_cons.2 ⟨hw, h.writes⟩
  place := by
    intro before slice after hsplit
    cases before with
    | nil =>
      cases hsplit
      exact hplace
    | cons first before =>
      obtain ⟨rfl, hrest⟩ := List.cons.inj hsplit
      rw [h.place before slice after hrest, ← Place.after_append, List.flatMap_cons,
        List.append_assoc]
      rfl

theorem space {c : Char} {slice : Slice} (hc : isSpace c = true)
    (h : Sliced (p.next c) cs tokens (slice :: slices)) :
    Sliced p (c :: cs) tokens ({ slice with gap := c :: slice.gap } :: slices) where
  tokens_eq := h.tokens_eq
  chars_eq := by rw [← h.chars_eq]; rfl
  gap := by
    obtain ⟨hslice, hslices⟩ := List.forall_mem_cons.1 h.gap
    exact List.forall_mem_cons.2 ⟨List.forall_mem_cons.2 ⟨hc, hslice⟩, hslices⟩
  writes := List.forall_mem_cons.2 (List.forall_mem_cons.1 h.writes)
  place := by
    intro before other after hsplit
    cases before with
    | nil =>
      cases hsplit
      exact h.place [] slice slices rfl
    | cons first before =>
      obtain ⟨rfl, rfl⟩ := List.cons.inj hsplit
      exact h.place (slice :: before) other after rfl

end Sliced

theorem Escaped.head?_value {raw value : List Char} (h : Escaped raw value) (hne : raw ≠ [])
    (hs : raw.head?.all (!isSpace ·)) : value.head?.any (!isSpace ·) := by
  cases h with
  | nil => exact absurd rfl hne
  | plain _ _ => simpa using hs
  | escape hc _ => simp [not_isSpace_of_isEscapable hc]

namespace Scans

variable {p : Place} {cs : List Char} {tokens : List Token}

theorem exists_slices (h : Scans p cs tokens) :
    ∃ slice slices, Sliced p cs tokens (slice :: slices) := by
  -- There always is a first slice, that of the end token at last, which takes up a space in front.
  induction h with
  | finish p =>
    refine ⟨⟨[], [], _⟩, [], rfl, rfl, by simp, by simpa using .finish, ?_⟩
    intro before slice after hsplit
    obtain ⟨rfl, rfl, rfl⟩ : before = [] ∧ slice = ⟨[], [], ⟨.finish, String.ofList [], p⟩⟩ ∧
        after = [] := by
      simpa [List.singleton_eq_append_iff] using hsplit
    rfl
  | space hc _ ih =>
    obtain ⟨slice, slices, hsliced⟩ := ih
    exact ⟨_, _, hsliced.space hc⟩
  | tag he _ ih =>
    obtain ⟨slice, slices, hsliced⟩ := ih
    exact ⟨_, _, hsliced.cons rfl (.tag he)⟩
  | text hr hne hs _ _ ih =>
    obtain ⟨slice, slices, hsliced⟩ := ih
    exact ⟨_, _, hsliced.cons rfl (.text hr (hr.head?_value hne hs))⟩

theorem head?_kind (h : Scans p cs tokens) (hc : cs.head?.all (· == '{')) :
    ∀ token ∈ tokens.head?, token.kind ≠ .text := by
  cases h with
  | finish _ => simp
  | space hspace _ =>
    simp only [List.head?_cons, Option.all_some, beq_iff_eq] at hc
    exact absurd hspace (by simp [hc, isSpace])
  | tag _ _ => simp
  | text hr hne _ _ _ =>
    cases hr with
    | nil => exact absurd rfl hne
    | plain hplain _ =>
      obtain rfl : _ = '{' := by simpa using hc
      exact absurd hplain (by decide)
    | escape _ _ => exact absurd hc (by simp)

theorem isChain (h : Scans p cs tokens) :
    tokens.IsChain fun token next => token.kind = .text → next.kind ≠ .text := by
  induction h with
  | finish _ => exact .singleton _
  | space _ _ ih => exact ih
  | tag _ _ ih => exact ih.cons (by simp)
  | text _ _ _ hc h ih => exact ih.cons fun next hnext _ => h.head?_kind hc next hnext

theorem exists_eq_concat (h : Scans p cs tokens) :
    ∃ front, tokens = front ++ [⟨.finish, String.ofList [], p.after cs⟩] ∧
      ∀ token ∈ front, token.kind ≠ .finish := by
  induction h with
  | finish p => exact ⟨[], rfl, by simp⟩
  | space _ _ ih => exact ih
  | tag _ _ ih =>
    obtain ⟨front, rfl, hfront⟩ := ih
    rw [Place.after_append]
    exact ⟨_ :: front, rfl, List.forall_mem_cons.2 ⟨by simp, hfront⟩⟩
  | text _ _ _ _ _ ih =>
    obtain ⟨front, rfl, hfront⟩ := ih
    rw [Place.after_append]
    exact ⟨_ :: front, rfl, List.forall_mem_cons.2 ⟨by simp, hfront⟩⟩

end Scans

/-- The lexer accepts just the language of templates, and the template is put together from spaces
and the slices of its tokens, in their order and where their places say. No two texts follow one
another, and one end token, at the end of the template, closes the tokens. -/
theorem tokenize_slices (s : String) :
    ((∃ tokens, tokenize s = .ok tokens) ↔ Lexemes (trim s.toList)) ∧
      ∀ tokens, tokenize s = .ok tokens →
        (∃ slices : List Slice,
          slices.map Slice.token = tokens ∧
          slices.flatMap Slice.chars = trim s.toList ∧
          (∀ slice ∈ slices,
            (∀ c ∈ slice.gap, isSpace c = true) ∧ slice.token.Writes slice.raw) ∧
          ∀ before slice after, slices = before ++ slice :: after →
            slice.token.place.offset = (before.flatMap Slice.chars ++ slice.gap).length) ∧
        (tokens.IsChain fun token next => token.kind = .text → next.kind ≠ .text) ∧
        ∃ front last, tokens = front ++ [last] ∧ last.kind = .finish ∧
          last.place.offset = (trim s.toList).length ∧ ∀ token ∈ front, token.kind ≠ .finish := by
  constructor
  · simp only [tokenize_eq_ok_iff]
    exact exists_scans_iff Place.start
  · intro tokens htokens
    have hscans := tokenize_eq_ok_iff.1 htokens
    obtain ⟨slice, slices, hsliced⟩ := hscans.exists_slices
    obtain ⟨front, heq, hfront⟩ := hscans.exists_eq_concat
    refine ⟨⟨slice :: slices, hsliced.tokens_eq, hsliced.chars_eq,
      fun x hx => ⟨hsliced.gap x hx, hsliced.writes x hx⟩, fun before x after hsplit => ?_⟩,
      hscans.isChain, front, _, heq, rfl, by simp [Place.start], hfront⟩
    rw [hsliced.place before x after hsplit]
    simp [Place.start]

theorem tokenize_slices_text :
    ∃ tokens, tokenize " a\\\x7b\n\x7b$END$\x7d  b" = .ok tokens ∧
      tokens.map (fun token => (token.kind, token.value, token.place.offset)) =
        [(.text, "a\x7b\n", 0), (.tag, "\x7b$END$\x7d", 4), (.text, "b", 13), (.finish, "", 14)] ∧
      ∃ slices : List Slice, slices.map Slice.token = tokens ∧
        slices.flatMap Slice.chars = "a\\\x7b\n\x7b$END$\x7d  b".toList := by
  have hb : Scans ⟨13, 2, 10⟩ "b".toList _ :=
    .text (.plain rfl .nil) (by simp) rfl rfl (.finish _)
  have htag : Scans ⟨4, 2, 1⟩ "\x7b$END$\x7d  b".toList _ :=
    .tag ⟨"$END$".toList, rfl, by decide⟩ (.space rfl (.space rfl hb))
  have hscans : Scans Place.start "a\\\x7b\n\x7b$END$\x7d  b".toList _ :=
    .text (.plain rfl (.escape rfl (.plain rfl .nil))) (by simp) rfl rfl htag
  have htokens := tokenize_eq_ok_iff (s := " a\\\x7b\n\x7b$END$\x7d  b").2 hscans
  obtain ⟨⟨slices, htoken, hchars, -⟩, -⟩ := (tokenize_slices _).2 _ htokens
  exact ⟨_, htokens, rfl, slices, htoken, hchars⟩

end Stencil
