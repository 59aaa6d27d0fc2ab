import Stencil.Proofs.Number.ReadBack
import Stencil.Proofs.Tag.Words

/-!
# The elements that words are

`WordForm word e` is the grammar of a word: what a variable, a function, an operator, a string and
the two kinds of numbers look like. `Element.ofWord_eq_ok_iff` says that reading a word follows it.
The second half is about the way back: the canonical text of an element that was read from a word
is a word again, and one of the same element unless that is an infinite double.
-/

set_option autoImplicit false

namespace Stencil

/-! ## The grammar of words -/

def IsIdentifier : List Char → Prop
  | [] => False
  | c :: tail => isLetter c = true ∧ ∀ d ∈ tail, isNameTail d = true

/-- A word and the element that it is. An integer literal is a decimal literal too, and counts as
the integer. -/
inductive WordForm : List Char → Element → Prop
  | identifier {name : List Char} (h : IsIdentifier name) :
      WordForm name (.variable (String.ofList name))
  | function {name : List Char} (h : IsIdentifier name) :
      WordForm ('@' :: name) (.function (String.ofList name))
  | operator (op : Operator) : WordForm [op.symbol] (.operator op)
  | string (s : List Char) : WordForm ('"' :: s ++ ['"']) (.string (String.ofList s))
  | integer {word : List Char} {n : Int} (h : IntegerForm word n) : WordForm word (.integer n)
  | double {word : List Char} {x : Double} (h : DecimalForm word x)
      (hn : ∀ n, ¬ IntegerForm word n) : WordForm word (.double x)

/-! ## What a word starts with -/

theorem isLetter_eq_false {c : Char} (h : c.toNat < 65) : isLetter c = false := by
  have hrange : decide (65 ≤ c.toNat) = false := decide_eq_false (by omega)
  show (decide (65 ≤ c.toNat) && _) = false
  rw [hrange, Bool.false_and]

theorem not_isLetter_of_isNumberHead {c : Char} (h : isNumberHead c = true) :
    isLetter c = false ∧ c ≠ '@' ∧ c ≠ '"' := by
  rw [isNumberHead, Bool.or_eq_true, List.contains_iff_mem] at h
  rcases h with h | h
  · have hnine : c.toNat ≤ 57 := (Char.isDigit_iff_toNat.1 h).2
    refine ⟨isLetter_eq_false (by omega), ?_, ?_⟩
    · rintro rfl
      exact absurd h (by decide)
    · rintro rfl
      exact absurd h (by decide)
  · simp only [List.mem_cons, List.not_mem_nil, or_false] at h
    rcases h with rfl | rfl | rfl <;> decide

theorem Operator.eq_symbol_of_ofSymbol? {c : Char} {op : Operator} (h : ofSymbol? c = some op) :
    c = op.symbol := by
  unfold ofSymbol? at h
  repeat' split at h
  · rename_i hc
    cases h
    exact hc
  · rename_i hc
    cases h
    exact hc
  · rename_i hc
    cases h
    exact hc
  · rename_i hc
    cases h
    exact hc
  · exact absurd h (by simp)

theorem Operator.ofSymbol?_of_integerForm {c : Char} {n : Int} (h : IntegerForm [c] n) :
    ofSymbol? c = none := by
  cases hop : ofSymbol? c with
  | none => rfl
  | some op =>
    obtain rfl := eq_symbol_of_ofSymbol? hop
    have hread := Literal.integer?_eq_some_iff.2 h
    cases op <;> exact absurd hread (by simp [symbol, Literal.integer?, Literal.splitSign,
      Literal.natural?])

/-! ## Reading a word -/

namespace Element

theorem functionOfName_eq_ok_iff {name : List Char} {e : Element} :
    functionOfName name = .ok e ↔ IsIdentifier name ∧ e = .function (String.ofList name) := by
  constructor
  · intro h
    unfold functionOfName at h
    split at h
    · exact absurd h (by simp)
    rename_i c tail
    split at h
    · exact absurd h (by simp)
    rename_i hc
    split at h
    · rename_i htail
      cases h
      exact ⟨⟨by simpa using hc, List.all_eq_true.1 htail⟩, rfl⟩
    · exact absurd h (by simp)
  · rintro ⟨hname, rfl⟩
    cases name with
    | nil => exact absurd hname (by simp [IsIdentifier])
    | cons c tail => simp [functionOfName, hname.1, List.all_eq_true.2 hname.2]

theorem quoted?_eq_some_iff {word s : List Char} :
    quoted? word = some s ↔ word = '"' :: s ++ ['"'] := by
  constructor
  · intro h
    unfold quoted? at h
    split at h
    · rename_i rest
      split at h
      · rename_i hlast
        obtain rfl := Option.some.inj h
        obtain ⟨front, rfl⟩ := List.getLast?_eq_some_iff.1 hlast
        simp
      · exact absurd h (by simp)
    · exact absurd h (by simp)
  · rintro rfl
    simp [quoted?]

/-- The constants and operators of the grammar are read, from words that do not start as a variable
or a function does. -/
theorem constant?_eq_some {word : List Char} {e : Element} (hword : Trimmed word)
    (h : constant? word = some e) : WordForm word e := by
  unfold constant? at h
  split at h
  · split at h
    · rename_i op hop
      obtain rfl := Option.some.inj h
      rw [Operator.eq_symbol_of_ofSymbol? hop]
      exact .operator op
    · obtain ⟨n, hn, rfl⟩ := Option.map_eq_some_iff.1 h
      exact .integer (Literal.integer?_eq_some_iff.1 hn)
  · split at h
    · rename_i s hs
      obtain rfl := Option.some.inj h
      rw [quoted?_eq_some_iff.1 hs]
      exact .string s
    · split at h
      · rename_i n hn
        obtain rfl := Option.some.inj h
        exact .integer (Literal.integer?_eq_some_iff.1 hn)
      · -- The literal is trimmed before it is read, but a word has no blanks at its ends.
        rename_i hn
        obtain ⟨x, hx, rfl⟩ := Option.map_eq_some_iff.1 h
        rw [hword.trim_eq] at hx
        refine .double (Literal.bareDouble?_eq_some_iff.1 hx) fun n hform => ?_
        rw [Literal.integer?_eq_some_iff.2 hform] at hn
        exact absurd hn (by simp)

theorem quoted?_of_isNumberHead {word : List Char} (hhead : word.head?.any isNumberHead) :
    quoted? word = none := by
  cases hq : quoted? word with
  | none => rfl
  | some s =>
    rw [quoted?_eq_some_iff.1 hq] at hhead
    exact absurd (show isNumberHead '"' = true from hhead) (by decide)

theorem constant?_of_integerForm {word : List Char} {n : Int} (h : IntegerForm word n) :
    constant? word = some (.integer n) := by
  unfold constant?
  split
  · rw [Operator.ofSymbol?_of_integerForm h]
    simp [Literal.integer?_eq_some_iff.2 h]
  · rw [quoted?_of_isNumberHead h.head, Literal.integer?_eq_some_iff.2 h]

theorem constant?_of_decimalForm {word : List Char} {x : Double} (h : DecimalForm word x)
    (hword : Trimmed word) (hn : ∀ n, ¬ IntegerForm word n) :
    constant? word = some (.double x) := by
  have hinteger : Literal.integer? word = none := by
    cases hi : Literal.integer? word with
    | none => rfl
    | some n => exact absurd (Literal.integer?_eq_some_iff.1 hi) (hn n)
  unfold constant?
  split
  · -- A single character would be a digit.
    obtain ⟨n, hform⟩ := h.integerForm_of_singleton
    exact absurd hform (hn n)
  · rw [quoted?_of_isNumberHead h.head, hinteger, hword.trim_eq,
      Literal.bareDouble?_eq_some_iff.2 h]
    rfl

theorem ofWord_of_isNumberHead {word : List Char} {e : Element}
    (hhead : word.head?.any isNumberHead) (h : constant? word = some e) : ofWord word = .ok e := by
  cases word with
  | nil => exact absurd hhead (by simp)
  | cons c tail =>
    obtain ⟨hletter, hat, -⟩ := not_isLetter_of_isNumberHead (c := c) (by simpa using hhead)
    simp [ofWord, hletter, hat, h]

/-- Reading a word follows its grammar. The reader tries one form after another and takes the first
that fits; the grammar has no order, so the forms have to be shown to exclude each other. -/
theorem ofWord_eq_ok_iff {word : List Char} {e : Element} (hword : IsWord word) :
    ofWord word = .ok e ↔ WordForm word e := by
  constructor
  · intro h
    unfold ofWord at h
    split at h
    · exact absurd h (by simp)
    rename_i c tail
    split at h
    · rename_i hc
      split at h
      · rename_i htail
        cases h
        exact .identifier ⟨hc, List.all_eq_true.1 htail⟩
      · exact absurd h (by simp)
    · split at h
      · rename_i hat
        obtain ⟨hname, rfl⟩ := functionOfName_eq_ok_iff.1 h
        rw [hat]
        exact .function hname
      · split at h
        · rename_i hconst
          cases h
          exact constant?_eq_some hword.trimmed hconst
        · exact absurd h (by simp)
  · intro h
    cases h with
    | identifier hname =>
      cases word with
      | nil => exact absurd hname (by simp [IsIdentifier])
      | cons c tail => simp [ofWord, hname.1, List.all_eq_true.2 hname.2]
    | function hname =>
      have hat : isLetter '@' = false := isLetter_eq_false (by decide)
      simp [ofWord, hat, functionOfName_eq_ok_iff.2 ⟨hname, rfl⟩]
    | operator op =>
      cases op <;> rfl
    | string s =>
      have hquote : isLetter '"' = false := isLetter_eq_false (by decide)
      have hconst : constant? ('"' :: s ++ ['"']) = some (.string (String.ofList s)) := by
        unfold constant?
        split
        · rename_i heq
          exact absurd heq (by simp)
        · rw [quoted?_eq_some_iff.2 rfl]
      rw [List.cons_append] at hconst
      simp [ofWord, hquote, hconst]
    | integer hform => exact ofWord_of_isNumberHead hform.head (constant?_of_integerForm hform)
    | double hform hn =>
      exact ofWord_of_isNumberHead hform.head
        (constant?_of_decimalForm hform hword.trimmed hn)

/-! ## The way back -/

/-- Whether an element is anything but an infinite double or no number at all. -/
def isFinite : Element → Bool
  | .double (.finite _ _) => true
  | .double _ => false
  | _ => true

end Element

theorem isWord_of_plain {cs : List Char} (hne : cs ≠ [])
    (h : ∀ c ∈ cs, c ≠ '"' ∧ isBlank c = false) : IsWord cs := by
  refine ⟨hne, ?_, ?_⟩
  · have hcount : cs.count '"' = 0 := List.count_eq_zero.2 fun hmem => (h _ hmem).1 rfl
    rw [openQuote_eq_false_iff, hcount]
    exact Even.zero
  · intro before c after heq hc
    have := (h c (by simp [heq])).2
    rw [hc] at this
    exact absurd this (by simp)

theorem isNumeral_plain {c : Char} (h : isNumeral c = true) :
    c ≠ '"' ∧ isBlank c = false ∧ c ≠ '}' := by
  rw [isNumeral, Bool.or_eq_true, List.contains_iff_mem] at h
  rcases h with h | h
  · have hdigit := Char.isDigit_iff_toNat.1 h
    refine ⟨?_, ?_, ?_⟩
    · rintro rfl
      exact absurd h (by decide)
    · have hzero : 48 ≤ c.toNat := hdigit.1
      have hnine : c.toNat ≤ 57 := hdigit.2
      simp only [isBlank, isSpace, Bool.or_eq_false_iff, Bool.and_eq_false_iff, beq_eq_false_iff_ne,
        decide_eq_false_iff_not]
      omega
    · rintro rfl
      exact absurd h (by decide)
  · simp only [List.mem_cons, List.not_mem_nil, or_false] at h
    rcases h with rfl | rfl | rfl | rfl | rfl <;> decide

theorem IsNumeral.isWord {cs : List Char} (h : IsNumeral cs) (hne : cs ≠ []) : IsWord cs :=
  isWord_of_plain hne fun c hmem =>
    ⟨(isNumeral_plain (h c hmem)).1, (isNumeral_plain (h c hmem)).2.1⟩

theorem IsNumeral.not_mem_brace {cs : List Char} (h : IsNumeral cs) : '}' ∉ cs :=
  fun hmem => (isNumeral_plain (h _ hmem)).2.2 rfl

theorem Decimal.toDouble_ne_nan (negative : Bool) (d : Decimal) : d.toDouble negative ≠ .nan := by
  have hrank : ∀ rank, Double.ofRank negative rank ≠ .nan := by
    intro rank
    unfold Double.ofRank
    split <;> simp
  unfold toDouble
  dsimp only
  split
  · exact hrank 0
  split
  · simp
  split
  · exact hrank 0
  · exact hrank _

theorem DecimalForm.ne_nan {cs : List Char} {x : Double} (h : DecimalForm cs x) : x ≠ .nan := by
  obtain ⟨-, -⟩ := h
  exact Decimal.toDouble_ne_nan _ _

theorem isWord_infinite (negative : Bool) :
    IsWord (Element.chars (.double (.infinite negative))) ∧
      '}' ∉ Element.chars (.double (.infinite negative)) := by
  have hchars : Element.chars (.double (.infinite negative)) =
      DoubleLayout.signText negative ++ ['I', 'n', 'f', 'i', 'n', 'i', 't', 'y'] := rfl
  have hall : (DoubleLayout.signText negative ++ ['I', 'n', 'f', 'i', 'n', 'i', 't', 'y']).all
      (fun c => (c != '"' && !isBlank c) && c != '}') = true := by
    cases negative <;> rfl
  simp only [List.all_eq_true, Bool.and_eq_true, bne_iff_ne, Bool.not_eq_true'] at hall
  rw [hchars]
  exact ⟨isWord_of_plain (by simp) fun c hmem => (hall c hmem).1, fun hmem => (hall _ hmem).2 rfl⟩

namespace WordForm

variable {word : List Char} {e : Element}

theorem chars_eq (h : WordForm word e) :
    (∃ n, e = .integer n) ∨ (∃ x, e = .double x ∧ x ≠ .nan) ∨ e.chars = word := by
  cases h with
  | identifier _ => exact .inr (.inr (by simp [Element.chars]))
  | function _ => exact .inr (.inr (by simp [Element.chars]))
  | operator op => exact .inr (.inr rfl)
  | string s => exact .inr (.inr (by simp [Element.chars]))
  | integer _ => exact .inl ⟨_, rfl⟩
  | double hform _ => exact .inr (.inl ⟨_, rfl, hform.ne_nan⟩)

theorem isWord_chars (h : WordForm word e) (hword : IsWord word) (hbrace : '}' ∉ word) :
    IsWord e.chars ∧ '}' ∉ e.chars := by
  rcases h.chars_eq with ⟨n, rfl⟩ | ⟨x, rfl, hx⟩ | hsame
  · have hform := integerForm_integerChars n
    have hne : integerChars n ≠ [] := fun hnil => absurd (hnil ▸ hform.head) (by simp)
    exact ⟨hform.isNumeral.isWord hne, hform.isNumeral.not_mem_brace⟩
  · cases x with
    | nan => exact absurd rfl hx
    | infinite negative => exact isWord_infinite negative
    | finite negative rank =>
      have hform := decimalForm_chars negative rank
      have hne : DoubleLayout.template.chars (.finite negative rank) ≠ [] :=
        fun hnil => absurd (hnil ▸ hform.head) (by simp)
      exact ⟨hform.isNumeral.isWord hne, hform.isNumeral.not_mem_brace⟩
  · rw [hsame]
    exact ⟨hword, hbrace⟩

theorem chars_of_isFinite (h : WordForm word e) (hfinite : e.isFinite = true) :
    WordForm e.chars e := by
  rcases h.chars_eq with ⟨n, rfl⟩ | ⟨x, rfl, -⟩ | hsame
  · exact .integer (integerForm_integerChars n)
  · cases x with
    | nan => exact absurd hfinite (by simp [Element.isFinite])
    | infinite negative => exact absurd hfinite (by simp [Element.isFinite])
    | finite negative rank =>
      exact .double (decimalForm_chars negative rank) (not_integerForm_chars negative rank)
  · rwa [hsame]

theorem kindName_ne_of_infinite {negative : Bool} {e' : Element}
    (h : WordForm (Element.chars (.double (.infinite negative))) e') :
    e'.kindName ≠ "double" := by
  have hword := (isWord_infinite negative).1
  cases negative with
  | false =>
    have hread : Element.ofWord (Element.chars (.double (.infinite false))) =
        .ok (.variable "Infinity") := rfl
    rw [← Element.ofWord_eq_ok_iff hword, hread] at h
    cases h
    decide
  | true =>
    have hread : Element.ofWord (Element.chars (.double (.infinite true))) =
        .error (.unrecognized "-Infinity") := rfl
    rw [← Element.ofWord_eq_ok_iff hword, hread] at h
    exact absurd h (by simp)

theorem isFinite_of_kindName {e' : Element} (h : WordForm word e) (h' : WordForm e.chars e')
    (hkind : e'.kindName = e.kindName) : e.isFinite = true := by
  cases e with
  | double x =>
    cases x with
    | nan =>
      cases h with
      | double hform _ => exact absurd rfl hform.ne_nan
    | infinite negative => exact absurd hkind (kindName_ne_of_infinite h')
    | finite negative rank => rfl
  | integer n => rfl
  | string s => rfl
  | «variable» name => rfl
  | function name => rfl
  | operator op => rfl

end WordForm

end Stencil
