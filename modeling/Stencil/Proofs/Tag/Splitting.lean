import Stencil.Proofs.Tag.Shapes

/-!
# Words that are set apart

Words with blanks between them are found again by splitting, whatever these blanks are, and every
body with its quotes paired splits into words that hold all its characters but for the blanks
outside its quotes (`splitBody_spread`). `IsWord` and `openQuote`, which say what a word is, look
at the characters alone, and `spread` and `letters` do not look at the machine either.
-/

set_option autoImplicit false

namespace Stencil

/-! ## From words to a body -/

def spread (gaps words : List (List Char)) (last : List Char) : List Char :=
  (List.zipWith (· ++ ·) gaps words).flatten ++ last

/-- Runs of blanks that keep so many words apart: no run but the first and the last is empty. -/
structure SetsApart (gaps words : List (List Char)) (last : List Char) : Prop where
  length_eq : gaps.length = words.length
  blanks : ∀ gap ∈ gaps, IsBlanks gap
  ne_nil : ∀ gap ∈ gaps.tail, gap ≠ []
  last : IsBlanks last

namespace SetsApart

variable {gap last : List Char} {gaps words : List (List Char)}

theorem tail {word : List Char} (h : SetsApart (gap :: gaps) (word :: words) last) :
    SetsApart gaps words last where
  length_eq := Nat.succ.inj h.length_eq
  blanks := fun gap hmem => h.blanks gap (List.mem_cons_of_mem _ hmem)
  ne_nil := fun gap hmem => h.ne_nil gap (List.mem_of_mem_tail hmem)
  last := h.last

theorem head?_spread (h : SetsApart gaps words last) (hne : ∀ gap ∈ gaps, gap ≠ []) :
    (spread gaps words last).head?.all isBlank := by
  cases gaps with
  | nil =>
    show last.head?.all isBlank
    cases hlast : last with
    | nil => rfl
    | cons c _ => exact h.last c (by rw [hlast]; exact List.mem_cons_self)
  | cons gap gaps =>
    cases words with
    | nil => exact absurd h.length_eq (by simp)
    | cons word words =>
      cases hgap : gap with
      | nil => exact absurd hgap (hne gap List.mem_cons_self)
      | cons c _ => exact h.blanks gap List.mem_cons_self c (by rw [hgap]; exact List.mem_cons_self)

end SetsApart

theorem Words.of_isBlanks {front body : List Char} {words : List (List Char)}
    (hfront : IsBlanks front) (h : Words body words) : Words (front ++ body) words := by
  induction front with
  | nil => exact h
  | cons c front ih =>
    refine .blank (hfront c List.mem_cons_self) (ih ?_)
    exact fun d hmem => hfront d (List.mem_cons_of_mem _ hmem)

theorem words_spread {words : List (List Char)} :
    ∀ {gaps : List (List Char)} {last : List Char}, SetsApart gaps words last →
      (∀ word ∈ words, IsWord word) → Words (spread gaps words last) words := by
  induction words with
  | nil =>
    intro gaps last h _
    obtain rfl : gaps = [] := List.eq_nil_of_length_eq_zero h.length_eq
    have hlast := Words.of_isBlanks h.last .nil
    rwa [List.append_nil] at hlast
  | cons word words ih =>
    intro gaps last h hwords
    obtain ⟨hword, hrest⟩ := List.forall_mem_cons.1 hwords
    cases gaps with
    | nil => exact absurd h.length_eq (by simp)
    | cons gap gaps =>
      have hsplit : spread (gap :: gaps) (word :: words) last =
          gap ++ (word ++ spread gaps words last) := by
        simp [spread]
      rw [hsplit]
      refine .of_isBlanks (h.blanks gap List.mem_cons_self) (.word hword ?_ (ih h.tail hrest))
      exact h.tail.head?_spread h.ne_nil

/-! ## The characters that are kept -/

/-- The characters of a body but for the blanks that stand behind an even number of quotes, which
are those outside of quoted stretches. -/
def letters (body : List Char) : List Char :=
  (body.zipIdx.filter fun ci => !isBlank ci.1 || openQuote (body.take ci.2)).map Prod.fst

theorem openQuote_append {cs : List Char} (h : openQuote cs = false) (ds : List Char) :
    openQuote (cs ++ ds) = openQuote ds := by
  rw [openQuote, List.count_append, openQuote]
  exact decide_eq_decide.2 (Nat.odd_add'.trans (iff_true_right (openQuote_eq_false_iff.1 h)))

theorem letters_append {cs : List Char} (h : openQuote cs = false) (ds : List Char) :
    letters (cs ++ ds) = letters cs ++ letters ds := by
  unfold letters
  rw [List.zipIdx_append, List.filter_append, List.map_append]
  congr 1
  · congr 1
    refine List.filter_congr fun ci hmem => ?_
    have hlt := (List.mem_zipIdx hmem).2.1
    rw [List.take_append_of_le_length (by omega)]
  · -- The places in the second part are counted from its start again.
    have hshift : ds.zipIdx (0 + cs.length) =
        ds.zipIdx.map (Prod.map id (· + cs.length)) := by
      rw [List.map_snd_add_zipIdx_eq_zipIdx, Nat.add_comm]
    rw [hshift, List.filter_map, List.map_map]
    congr 1
    refine List.filter_congr fun ci _ => ?_
    show (!isBlank ci.1 || openQuote ((cs ++ ds).take (ci.2 + cs.length))) = _
    rw [Nat.add_comm, List.take_length_add_append, openQuote_append h]

theorem letters_of_blanksQuoted {word : List Char} (h : BlanksQuoted word) :
    letters word = word := by
  have hall : (word.zipIdx.filter fun ci => !isBlank ci.1 || openQuote (word.take ci.2)) =
      word.zipIdx := by
    refine List.filter_eq_self.2 fun ci hmem => ?_
    obtain ⟨hlt, hc⟩ := List.getElem?_eq_some_iff.1 (List.mem_zipIdx_iff_getElem?.1 hmem)
    have hsplit : word = word.take ci.2 ++ ci.1 :: word.drop (ci.2 + 1) := by
      rw [← hc, ← List.drop_eq_getElem_cons hlt, List.take_append_drop]
    cases hblank : isBlank ci.1 with
    | false => rfl
    | true => exact h _ _ _ hsplit hblank
  rw [letters, hall, List.zipIdx_map_fst]

theorem letters_singleton {c : Char} (hc : isBlank c = true) : letters [c] = [] := by
  simp [letters, hc]

/-- The words of a body hold its letters in their order: nothing is lost but the blanks outside
quotes, and nothing changes its place. -/
theorem Words.flatten_eq {body : List Char} {words : List (List Char)} (h : Words body words) :
    words.flatten = letters body := by
  induction h with
  | nil => rfl
  | @blank c body words hc _ ih =>
    have hclosed : openQuote [c] = false := by
      rw [openQuote_cons, if_neg (ne_quote_of_isBlank hc), openQuote_nil]
    rw [ih, ← List.singleton_append, letters_append hclosed, letters_singleton hc, List.nil_append]
  | word hw _ _ ih =>
    rw [List.flatten_cons, ih, letters_append hw.closed, letters_of_blanksQuoted hw.blanks]

theorem splitBody_eq_error_iff {body : List Char} {fault : BodyFault} :
    splitBody body = .error fault ↔
      Odd (body.count '"') ∧ fault = .unterminatedString (String.ofList (trim body)) := by
  rw [← Nat.not_even_iff_odd, ← exists_words_iff]
  simp only [← splitBody_eq_ok_iff]
  unfold splitBody
  cases splitFrom false [] body with
  | none => simp [eq_comm]
  | some words => simp

/-- Splitting undoes setting words apart, for all words and all runs of blanks that do so. A body is
refused exactly if the number of its quotes is odd, and else it is split into words that, put
together, are the body without the blanks that stand behind an even number of quotes. -/
theorem splitBody_spread :
    (∀ gaps words last, SetsApart gaps words last → (∀ word ∈ words, IsWord word) →
      splitBody (spread gaps words last) = .ok words) ∧
    ∀ body : List Char,
      (∀ fault, splitBody body = .error fault ↔
        Odd (body.count '"') ∧ fault = .unterminatedString (String.ofList (trim body))) ∧
      (Even (body.count '"') → ∃ words, splitBody body = .ok words ∧
        (∀ word ∈ words, IsWord word) ∧ words.flatten = letters body) := by
  refine ⟨fun gaps words last h hwords => ?_, fun body => ⟨fun fault => ?_, fun heven => ?_⟩⟩
  · exact splitBody_eq_ok_iff.2 (words_spread h hwords)
  · exact splitBody_eq_error_iff
  · obtain ⟨words, h⟩ := exists_words_iff.2 heven
    exact ⟨words, splitBody_eq_ok_iff.2 h, h.isWord, h.flatten_eq⟩

theorem splitBody_spread_touching :
    let gaps := [[], "\n\t ".toList, " ".toList]
    let words := ["a\"b c\"d".toList, "\" \"\"\t\"".toList, "+".toList]
    SetsApart gaps words [' '] ∧ (∀ word ∈ words, IsWord word) ∧
      splitBody (spread gaps words [' ']) = .ok words ∧
      Even ((spread gaps words [' ']).count '"') ∧
      words.flatten = letters (spread gaps words [' ']) := by
  intro gaps words
  have hsplit : splitBody (spread gaps words [' ']) = .ok words := rfl
  have hwords : ∀ word ∈ words, IsWord word := (splitBody_eq_ok_iff.1 hsplit).isWord
  have hblanks : gaps.all (·.all isBlank) = true := rfl
  have happart : SetsApart gaps words [' '] := by
    refine ⟨rfl, fun gap hmem => ?_, by decide, ?_⟩
    · exact List.all_eq_true.1 (List.all_eq_true.1 hblanks gap hmem)
    · exact List.forall_mem_singleton.2 rfl
  have heven : Even ((spread gaps words [' ']).count '"') := by decide
  obtain ⟨happart', hbody⟩ := splitBody_spread
  obtain ⟨words', hwords', -, hletters⟩ := (hbody (spread gaps words [' '])).2 heven
  have hsame := happart' gaps words [' '] happart hwords
  obtain rfl : words = words' := Except.ok.inj (hsame.symm.trans hwords')
  exact ⟨happart, hwords, hsame, heven, hletters⟩

end Stencil
