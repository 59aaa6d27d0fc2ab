import Mathlib.Algebra.Ring.Parity
import Stencil.Proofs.Text.Span
import Stencil.Tag.Word

/-!
# The words of a body

`Words body words` says what it is for a body to split at the blanks outside its quotes, without
the machine that does it: `splitBody` keeps a flag and the letters of the word that it is in.
`splitBody_eq_ok_iff` says that both agree, and `exists_words_iff` that a body splits exactly if
its quotes pair up. `Words.join` is the way back, from words to a body with blanks between them.
-/

set_option autoImplicit false

namespace Stencil

/-! ## Blanks at the ends -/

/-- Characters with no blank at either end. -/
def Trimmed (cs : List Char) : Prop :=
  cs.head?.all (!isBlank ·) ∧ cs.getLast?.all (!isBlank ·)

theorem Trimmed.trim_eq {cs : List Char} (h : Trimmed cs) : trim cs = cs := by
  have hlast : cs.reverse.head?.all (!isBlank ·) := by simpa using h.2
  rw [trim, dropWhile_of_head? h.1, trimEnd, dropWhile_of_head? hlast, List.reverse_reverse]

theorem trimmed_trim (cs : List Char) : Trimmed (trim cs) := by
  have hlast := head?_dropWhile isBlank (cs.dropWhile isBlank).reverse
  refine ⟨?_, by simpa [trim, trimEnd] using hlast⟩
  have hhead := head?_dropWhile isBlank cs
  unfold trim trimEnd
  generalize cs.dropWhile isBlank = ds at *
  -- The first character is the last one to be taken off the end.
  cases ds with
  | nil => rfl
  | cons d ds =>
    have hd : isBlank d = false := by simpa using hhead
    rw [List.reverse_cons, List.dropWhile_append]
    split <;> simp [hd]

theorem Trimmed.trimEnd_append {cs : List Char} (h : Trimmed cs) (rest : List Char) :
    trimEnd (cs ++ rest) = cs ++ trimEnd rest := by
  have hlast : cs.reverse.head?.all (!isBlank ·) := by
    rw [List.head?_reverse]
    exact h.2
  rw [trimEnd, List.reverse_append, List.dropWhile_append]
  split
  · rename_i hblank
    rw [dropWhile_of_head? hlast, List.reverse_reverse, trimEnd, List.isEmpty_iff.1 hblank]
    simp
  · rw [List.reverse_append, List.reverse_reverse, trimEnd]

theorem Trimmed.trim_append {cs : List Char} (h : Trimmed cs) (hne : cs ≠ []) (rest : List Char) :
    trim (cs ++ rest) = cs ++ trimEnd rest := by
  have hhead : (cs ++ rest).head?.all (!isBlank ·) := by
    cases cs with
    | nil => exact absurd rfl hne
    | cons c cs => exact h.1
  rw [trim, dropWhile_of_head? hhead, h.trimEnd_append]

/-! ## Quotes -/

/-- Whether a quoted stretch is open behind some characters. Every quote opens or closes one,
whatever stands next to it, so counting them is enough. -/
def openQuote (cs : List Char) : Bool := decide (Odd (cs.count '"'))

@[simp] theorem openQuote_nil : openQuote [] = false := by simp [openQuote]

theorem openQuote_cons (c : Char) (cs : List Char) :
    openQuote (c :: cs) = if c = '"' then !openQuote cs else openQuote cs := by
  by_cases h : c = '"'
  · subst h
    simp [openQuote, Nat.odd_add_one, ← decide_not]
  · simp [openQuote, h]

theorem openQuote_reverse (cs : List Char) : openQuote cs.reverse = openQuote cs := by
  simp [openQuote]

theorem openQuote_eq_false_iff {cs : List Char} : openQuote cs = false ↔ Even (cs.count '"') := by
  simp [openQuote]

theorem ne_quote_of_isBlank {c : Char} (h : isBlank c = true) : c ≠ '"' := by
  rintro rfl
  exact absurd h (by decide)

/-! ## Words -/

/-- Every blank stands inside quotes. -/
def BlanksQuoted (word : List Char) : Prop :=
  ∀ before c after, word = before ++ c :: after → isBlank c = true → openQuote before = true

structure IsWord (word : List Char) : Prop where
  ne_nil : word ≠ []
  closed : openQuote word = false
  blanks : BlanksQuoted word

/-- A body and its words, with blanks between the words and perhaps at both ends. A word ends at a
blank or at the end, so no word can be cut in two; that is what makes the words of a body unique. -/
inductive Words : List Char → List (List Char) → Prop
  | nil : Words [] []
  | blank {c : Char} {body : List Char} {words : List (List Char)} (hc : isBlank c = true)
      (h : Words body words) : Words (c :: body) words
  | word {word rest : List Char} {words : List (List Char)} (hw : IsWord word)
      (hrest : rest.head?.all isBlank) (h : Words rest words) : Words (word ++ rest) (word :: words)

theorem IsWord.trimmed {word : List Char} (h : IsWord word) : Trimmed word := by
  refine ⟨?_, ?_⟩
  · cases hw : word with
    | nil => rfl
    | cons c tail =>
      have hc := h.blanks [] c tail hw
      simpa using hc
  · cases hw : word.getLast? with
    | none => rfl
    | some c =>
      obtain ⟨before, rfl⟩ := List.getLast?_eq_some_iff.1 hw
      have hc := h.blanks before c [] rfl
      have hclosed := h.closed
      rw [← openQuote_reverse, List.reverse_append, List.reverse_singleton, List.singleton_append,
        openQuote_cons, openQuote_reverse] at hclosed
      cases hb : isBlank c with
      | false => simp [hb]
      | true =>
        rw [if_neg (ne_quote_of_isBlank hb), hc hb] at hclosed
        exact absurd hclosed (by simp)

namespace BlanksQuoted

theorem nil : BlanksQuoted [] := by
  intro before c after h
  exact absurd h (by simp)

theorem append_singleton {word : List Char} {c : Char} (h : BlanksQuoted word)
    (hc : isBlank c = true → openQuote word = true) : BlanksQuoted (word ++ [c]) := by
  intro before d after heq hd
  rcases List.append_eq_append_iff.1 heq with ⟨as, rfl, has⟩ | ⟨bs, rfl, hbs⟩
  · -- The blank is the new character itself, or stands behind it.
    cases as with
    | nil =>
      obtain ⟨rfl, -⟩ : c = d ∧ [] = after := by simpa using has
      simpa using hc hd
    | cons a as =>
      exact absurd has (by simp)
  · cases bs with
    | nil =>
      obtain ⟨rfl, -⟩ : d = c ∧ after = [] := by simpa using hbs
      simpa using hc hd
    | cons b bs =>
      obtain ⟨rfl, -⟩ := List.cons.inj hbs
      exact h before d bs rfl hd

end BlanksQuoted

/-! ## Splitting -/

/-- The words of what is split are those of the body, the word that is under way among them. That
word is kept from its last letter to its first, which is why it is turned round here. -/
theorem words_of_splitFrom {cs : List Char} :
    ∀ (word : List Char) {words : List (List Char)}, BlanksQuoted word.reverse →
      splitFrom (openQuote word) word cs = some words → Words (word.reverse ++ cs) words := by
  induction cs with
  | nil =>
    intro word words hword h
    rw [splitFrom] at h
    split at h
    · exact absurd h (by simp)
    rename_i hopen
    obtain rfl := Option.some.inj h
    rw [Bool.not_eq_true] at hopen
    cases word with
    | nil => exact .nil
    | cons c word =>
      exact .word ⟨by simp, by rwa [openQuote_reverse], hword⟩ rfl .nil
  | cons c cs ih =>
    intro word words hword h
    have hcons : word.reverse ++ c :: cs = (c :: word).reverse ++ cs := by simp
    rw [splitFrom] at h
    split at h
    · -- A quote belongs to the word, and opens or closes a stretch.
      rename_i hc
      rw [hcons]
      refine ih (c :: word) ?_ (by rw [openQuote_cons, if_pos hc]; exact h)
      rw [List.reverse_cons]
      exact hword.append_singleton fun hb => absurd hc (ne_quote_of_isBlank hb)
    · rename_i hc
      split at h
      · -- A blank outside quotes ends the word, if there is one.
        rename_i hblank
        rw [Bool.and_eq_true, Bool.not_eq_true'] at hblank
        obtain ⟨rest, hrest, rfl⟩ := Option.map_eq_some_iff.1 h
        have htail : Words (c :: cs) rest := .blank hblank.2 (ih [] .nil (by rwa [openQuote_nil]))
        cases word with
        | nil => exact htail
        | cons d word =>
          exact .word ⟨by simp, by rw [openQuote_reverse]; exact hblank.1, hword⟩ hblank.2 htail
      · -- Anything else belongs to the word, a blank too where a quote is open.
        rename_i hblank
        rw [hcons]
        refine ih (c :: word) ?_ (by rw [openQuote_cons, if_neg hc]; exact h)
        rw [List.reverse_cons]
        refine hword.append_singleton fun hb => ?_
        rw [openQuote_reverse]
        simpa [hb] using hblank

theorem splitFrom_append {more : List Char} :
    ∀ (word rest : List Char), BlanksQuoted (word.reverse ++ more) →
      splitFrom (openQuote word) word (more ++ rest) =
        splitFrom (openQuote (more.reverse ++ word)) (more.reverse ++ word) rest := by
  induction more with
  | nil =>
    intro word rest _
    rfl
  | cons c more ih =>
    intro word rest h
    have hcons : word.reverse ++ c :: more = (c :: word).reverse ++ more := by simp
    have hstep : splitFrom (openQuote word) word (c :: (more ++ rest)) =
        splitFrom (openQuote (c :: word)) (c :: word) (more ++ rest) := by
      rw [splitFrom, openQuote_cons]
      split
      · rfl
      · rw [if_neg]
        intro hblank
        rw [Bool.and_eq_true, Bool.not_eq_true'] at hblank
        have := h word.reverse c more rfl hblank.2
        rw [openQuote_reverse, hblank.1] at this
        exact absurd this (by simp)
    rw [List.cons_append, hstep, ih (c :: word) rest (hcons ▸ h), List.reverse_cons,
      List.append_assoc, List.singleton_append]

theorem splitFrom_of_words {body : List Char} {words : List (List Char)} (h : Words body words) :
    splitFrom false [] body = some words := by
  induction h with
  | nil => rfl
  | blank hc _ ih => simp [splitFrom, ne_quote_of_isBlank hc, hc, ih, consWord]
  | word hw hrest _ ih =>
    rename_i word rest words _
    have happend := splitFrom_append [] rest hw.blanks
    have hcons : consWord word.reverse words = word :: words := by simp [consWord, hw.ne_nil]
    rw [openQuote_nil, List.append_nil, openQuote_reverse, hw.closed] at happend
    rw [happend]
    cases rest with
    | nil =>
      obtain rfl : [] = words := Option.some.inj ih
      simp [splitFrom, hcons]
    | cons c rest =>
      have hc : isBlank c = true := hrest
      simp only [splitFrom, ne_quote_of_isBlank hc, hc, if_false, Bool.not_false, Bool.and_self,
        if_true] at ih ⊢
      obtain ⟨words', hwords', rfl⟩ := Option.map_eq_some_iff.1 ih
      rw [hwords']
      simpa [consWord] using hw.ne_nil

/-- Splitting gives the words of the body, and of no body that does not split. `Words` says what the
words of a body are without going through it, and so can be taken apart at any place. -/
theorem splitBody_eq_ok_iff {body : List Char} {words : List (List Char)} :
    splitBody body = .ok words ↔ Words body words := by
  unfold splitBody
  constructor
  · intro h
    split at h
    · rename_i hsplit
      cases h
      exact words_of_splitFrom [] .nil (by rwa [openQuote_nil])
    · exact absurd h (by simp)
  · intro h
    rw [splitFrom_of_words h]

theorem isSome_splitFrom (cs : List Char) :
    ∀ (quoted : Bool) (word : List Char),
      (splitFrom quoted word cs).isSome = (quoted == openQuote cs) := by
  induction cs with
  | nil => intro quoted word; cases quoted <;> simp [splitFrom]
  | cons c cs ih =>
    intro quoted word
    rw [splitFrom, openQuote_cons]
    split
    · rw [ih]
      cases quoted <;> cases openQuote cs <;> rfl
    · split
      · rename_i hblank
        rw [Bool.and_eq_true, Bool.not_eq_true'] at hblank
        rw [Option.isSome_map, ih, hblank.1]
      · rw [ih]

theorem exists_words_iff {body : List Char} :
    (∃ words, Words body words) ↔ Even (body.count '"') := by
  rw [← openQuote_eq_false_iff]
  have hsome := isSome_splitFrom body false []
  constructor
  · rintro ⟨words, h⟩
    rw [splitFrom_of_words h] at hsome
    simpa using hsome.symm
  · intro h
    rw [h, beq_self_eq_true, Option.isSome_iff_exists] at hsome
    obtain ⟨words, hwords⟩ := hsome
    exact ⟨words, words_of_splitFrom [] .nil (by rwa [openQuote_nil])⟩

namespace Words

theorem isWord {body : List Char} {words : List (List Char)} (h : Words body words) :
    ∀ word ∈ words, IsWord word := by
  induction h with
  | nil => exact fun _ hmem => absurd hmem (by simp)
  | blank _ _ ih => exact ih
  | word hw _ _ ih =>
    intro word hmem
    rcases List.mem_cons.1 hmem with rfl | hmem
    · exact hw
    · exact ih word hmem

theorem mem_body {body : List Char} {words : List (List Char)} (h : Words body words) :
    ∀ word ∈ words, ∀ c ∈ word, c ∈ body := by
  induction h with
  | nil => exact fun _ hmem => absurd hmem (by simp)
  | blank _ _ ih => exact fun word hmem c hc => List.mem_cons_of_mem _ (ih word hmem c hc)
  | word _ _ _ ih =>
    intro word hmem c hc
    rcases List.mem_cons.1 hmem with rfl | hmem
    · exact List.mem_append_left _ hc
    · exact List.mem_append_right _ (ih word hmem c hc)

theorem unique {body : List Char} {words words' : List (List Char)} (h : Words body words)
    (h' : Words body words') : words = words' := by
  rw [← splitBody_eq_ok_iff] at h h'
  rw [h] at h'
  exact Except.ok.inj h'

theorem join {words : List (List Char)} (h : ∀ word ∈ words, IsWord word) :
    Words (words.flatMap (' ' :: ·) ++ [' ']) words := by
  induction words with
  | nil => exact .blank (by decide) .nil
  | cons word words ih =>
    have htail := ih fun w hmem => h w (List.mem_cons_of_mem _ hmem)
    rw [List.flatMap_cons, List.append_assoc, List.cons_append]
    refine .blank (by decide) (.word (h word List.mem_cons_self) ?_ htail)
    cases words <;> rfl

end Words

end Stencil
