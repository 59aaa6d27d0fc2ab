import Stencil.Proofs.Tag.Shapes

/-!
# Tags written back

The canonical text of a tag has its shape, and it holds the canonical texts of its elements as
words. So it is read as the tag that it is the text of, unless an element is an infinite double;
`TagGrammar.grammar_chars` and `TagGrammar.elements_of_chars` say what happens in either case.
-/

set_option autoImplicit false

namespace Stencil

namespace Tag

def chars : Tag → List Char
  | .close => Node.endChars
  | .echo elements => Node.openingChars (.echo elements)
  | .loop l => l.chars

def elements : Tag → List Element
  | .echo elements => elements
  | _ => []

end Tag

/-- A tag as it is cut from a template: nothing between its braces ends it. -/
def Enclosed (tag : List Char) : Prop := ∃ inner, tag = '{' :: (inner ++ ['}']) ∧ '}' ∉ inner

theorem Enclosed.not_mem_dropLast {tag : List Char} (h : Enclosed tag) : '}' ∉ tag.dropLast := by
  obtain ⟨inner, rfl, hinner⟩ := h
  rw [← List.cons_append, List.dropLast_concat]
  simp [hinner]

theorem Closes.not_mem_body {tag front inside body : List Char} (h : Closes inside body)
    (htag : tag = front ++ inside) (he : Enclosed tag) : '}' ∉ body := by
  obtain ⟨a, -, rfl⟩ := h
  intro hmem
  apply he.not_mem_dropLast
  have hlast : tag = (front ++ body ++ '$' :: a) ++ ['}'] := by simp [htag]
  rw [hlast, List.dropLast_concat]
  simp [hmem]

theorem Opens.exists_front {tag inside : List Char} (h : Opens tag inside) :
    ∃ front, tag = front ++ inside := by
  obtain ⟨a, b, -, -, rfl⟩ := h
  exact ⟨'{' :: (a ++ '$' :: b), by simp⟩

/-! ## Canonical shapes -/

/-- A body of words as it is written: a blank before each of them, and one at the end. -/
def joined (words : List (List Char)) : List Char := words.flatMap (' ' :: ·) ++ [' ']

theorem head?_joined (words : List (List Char)) : (joined words).head?.all isBlank := by
  cases words <;> rfl

theorem tagForm_close : TagForm Tag.close.chars .close := by
  have hopens : Opens Tag.close.chars (['E', 'N', 'D'] ++ ['$', '}']) :=
    ⟨[], [], by simp [IsBlanks], by simp [IsBlanks], rfl⟩
  have hcloses : Closes ['$', '}'] [] := ⟨[], by simp [IsBlanks], rfl⟩
  exact .close hopens rfl hcloses (by simp [IsBlanks])

theorem tagChars_eq (opening : List Char) (words : List (List Char)) :
    tagChars opening words = opening ++ (joined words ++ ['$', '}']) := by
  simp [tagChars, joined]

theorem closes_joined (words : List (List Char)) :
    Closes (joined words ++ ['$', '}']) (joined words) :=
  ⟨[], by simp [IsBlanks], rfl⟩

theorem tagForm_echo (elements : List Element) :
    TagForm (Tag.echo elements).chars (.echo (joined (elements.map Element.chars))) :=
  .echo ⟨[], [], by simp [IsBlanks], by simp [IsBlanks], tagChars_eq _ _⟩ (closes_joined _)

theorem tagForm_loop (l : Loop) : TagForm (Tag.loop l).chars (.loop (joined l.words)) := by
  have hopens : Opens (Tag.loop l).chars (['F', 'O', 'R'] ++ (joined l.words ++ ['$', '}'])) :=
    ⟨[], [], by simp [IsBlanks], by simp [IsBlanks], tagChars_eq _ _⟩
  exact .loop hopens rfl (closes_joined _) (head?_joined _)

/-! ## What the words of a canonical tag are -/

/-- An element that was read from a word of a tag. Not every element is: a string may hold a brace,
and a name anything, if they are made by hand. -/
def Element.FromTag (e : Element) : Prop :=
  ∃ word, IsWord word ∧ '}' ∉ word ∧ WordForm word e

theorem Element.FromTag.isWord {e : Element} (h : e.FromTag) : IsWord e.chars ∧ '}' ∉ e.chars := by
  obtain ⟨word, hword, hbrace, hform⟩ := h
  exact hform.isWord_chars hword hbrace

theorem Element.FromTag.wordForm {e : Element} (h : e.FromTag) (hfinite : e.isFinite = true) :
    WordForm e.chars e := by
  obtain ⟨word, -, -, hform⟩ := h
  exact hform.chars_of_isFinite hfinite

theorem isWord_integerChars (n : Int) : IsWord (integerChars n) ∧ '}' ∉ integerChars n := by
  have hfrom : (Element.integer n).FromTag := by
    have hform := integerForm_integerChars n
    have hne : integerChars n ≠ [] := fun hnil => absurd (hnil ▸ hform.head) (by simp)
    have hnumeral := hform.isNumeral
    exact ⟨integerChars n, hnumeral.isWord hne, hnumeral.not_mem_brace, .integer hform⟩
  exact hfrom.isWord

theorem not_mem_joined {words : List (List Char)} (h : ∀ word ∈ words, '}' ∉ word) :
    '}' ∉ joined words := by
  intro hmem
  rcases List.mem_append.1 hmem with hmem | hmem
  · obtain ⟨word, hword, hmem⟩ := List.mem_flatMap.1 hmem
    rcases List.mem_cons.1 hmem with heq | hmem
    · exact absurd heq (by decide)
    · exact h word hword hmem
  · exact absurd hmem (by decide)

theorem enclosed_tagChars {opening : List Char} {words : List (List Char)}
    (ho : '}' ∉ opening) (h : ∀ word ∈ words, '}' ∉ word) :
    Enclosed (tagChars ('{' :: opening) words) := by
  refine ⟨opening ++ (joined words ++ ['$']), by simp [tagChars_eq], ?_⟩
  simp [ho, not_mem_joined h]

theorem exists_of_forall₂ {α β : Type} {R : α → β → Prop} {xs : List α} {ys : List β}
    (h : List.Forall₂ R xs ys) : ∀ y ∈ ys, ∃ x ∈ xs, R x y := by
  induction h with
  | nil => exact fun _ hmem => absurd hmem (by simp)
  | cons hxy _ ih =>
    rename_i x y xs ys _
    intro z hmem
    rcases List.mem_cons.1 hmem with rfl | hmem
    · exact ⟨x, List.mem_cons_self, hxy⟩
    · obtain ⟨w, hw, hwz⟩ := ih z hmem
      exact ⟨w, List.mem_cons_of_mem _ hw, hwz⟩

/-! ## Canonical tags -/

namespace TagGrammar

variable {tag : List Char} {t t' : Tag}

theorem unique (h : TagGrammar tag t) (h' : TagGrammar tag t') : t = t' := by
  rw [← Tag.ofChars_eq_ok_iff] at h h'
  rw [h] at h'
  exact Except.ok.inj h'

theorem elements_ne_nil {elements : List Element} (h : TagGrammar tag (.echo elements)) :
    elements ≠ [] := by
  cases h with
  | echo _ _ hne hforms =>
    rintro rfl
    exact hne (List.forall₂_nil_right_iff.1 hforms)

theorem fromTag (h : TagGrammar tag t) (he : Enclosed tag) : ∀ e ∈ t.elements, e.FromTag := by
  cases h with
  | close _ => exact fun e hmem => absurd hmem (by simp [Tag.elements])
  | loop _ _ _ _ => exact fun e hmem => absurd hmem (by simp [Tag.elements])
  | echo hform hwords _ hforms =>
    intro e hmem
    obtain ⟨word, hword, hread⟩ := exists_of_forall₂ hforms e hmem
    cases hform with
    | echo ho hc =>
      rename_i inside
      obtain ⟨front, hfront⟩ := ho.exists_front
      have htag : tag = front ++ ['='] ++ inside := by simp [hfront]
      have hbody := hc.not_mem_body htag he
      have hbrace : '}' ∉ word := fun hc => hbody (hwords.mem_body word hword _ hc)
      exact ⟨word, hwords.isWord word hword, hbrace, hread⟩

theorem fromTag_of_echo {elements : List Element} (h : TagGrammar tag (.echo elements))
    (he : Enclosed tag) : ∀ word ∈ elements.map Element.chars, IsWord word ∧ '}' ∉ word := by
  intro word hmem
  obtain ⟨e, hemem, rfl⟩ := List.mem_map.1 hmem
  exact (h.fromTag he e hemem).isWord

theorem words_of_loop {l : Loop} (h : TagGrammar tag (.loop l)) (he : Enclosed tag) :
    (∀ word ∈ l.words, IsWord word ∧ '}' ∉ word) ∧ IsIdentifier l.name.toList := by
  cases h with
  | loop hform hwords hid hbounds =>
    rename_i name bounds start stop step
    cases hform with
    | loop ho hspelled hc hblank =>
      rename_i spelled inside
      obtain ⟨front, hfront⟩ := ho.exists_front
      have htag : tag = front ++ spelled ++ inside := by simp [hfront]
      have hbody := hc.not_mem_body htag he
      refine ⟨?_, by simpa using hid⟩
      intro word hmem
      rcases List.mem_cons.1 hmem with rfl | hmem
      · rw [String.toList_ofList]
        refine ⟨hwords.isWord name List.mem_cons_self, fun hc => hbody ?_⟩
        exact hwords.mem_body name List.mem_cons_self _ hc
      · obtain ⟨n, -, rfl⟩ := List.mem_map.1 hmem
        exact isWord_integerChars n

/-- The canonical text of a tag is a tag as it is cut from a template: from its first brace to the
next one that closes. None stands in between, as no element is written with one. -/
theorem enclosed_chars (h : TagGrammar tag t) (he : Enclosed tag) : Enclosed t.chars := by
  cases t with
  | close => exact ⟨['$', 'E', 'N', 'D', '$'], rfl, by decide⟩
  | echo elements =>
    exact enclosed_tagChars (by decide) fun word hmem => (h.fromTag_of_echo he word hmem).2
  | loop l =>
    exact enclosed_tagChars (by decide) fun word hmem => ((h.words_of_loop he).1 word hmem).2

theorem grammar_chars_of_ne_echo (h : TagGrammar tag t) (he : Enclosed tag)
    (hecho : ∀ elements, t ≠ .echo elements) : TagGrammar t.chars t := by
  cases t with
  | close => exact .close tagForm_close
  | echo elements => exact absurd rfl (hecho elements)
  | loop l =>
    obtain ⟨hwords, hid⟩ := h.words_of_loop he
    have hbounds : List.Forall₂ IntegerForm ((l.start :: l.stop :: l.step.toList).map integerChars)
        (l.start :: l.stop :: l.step.toList) := by
      rw [List.forall₂_map_left_iff, List.forall₂_same]
      exact fun n _ => integerForm_integerChars n
    have hform := TagGrammar.loop (tagForm_loop l) (Words.join fun w hmem => (hwords w hmem).1) hid
      hbounds
    rwa [String.ofList_toList] at hform

/-- What the canonical text of a tag is read as: the tag itself, except that the words of an echo
are read anew. -/
theorem grammar_chars_iff (h : TagGrammar tag t) (he : Enclosed tag) :
    TagGrammar t.chars t' ↔ (∀ elements, t ≠ .echo elements) ∧ t' = t ∨
      ∃ elements elements', t = .echo elements ∧ t' = .echo elements' ∧
        List.Forall₂ (fun e e' => WordForm e.chars e') elements elements' := by
  -- The words of a loop are a name and integers, which are read as they were written.
  by_cases hecho : ∃ elements, t = .echo elements
  · obtain ⟨elements, rfl⟩ := hecho
    have hne := h.elements_ne_nil
    have hjoin := Words.join fun word hmem => (h.fromTag_of_echo he word hmem).1
    constructor
    · intro h'
      refine .inr ⟨elements, ?_⟩
      have hshape := tagForm_echo elements
      cases h' with
      | close hform => exact absurd (hform.unique hshape) (by simp)
      | loop hform _ _ _ => exact absurd (hform.unique hshape) (by simp)
      | echo hform hwords _ hforms =>
        cases hform.unique hshape
        rw [hwords.unique hjoin, List.forall₂_map_left_iff] at hforms
        exact ⟨_, rfl, rfl, hforms⟩
    · rintro (⟨hnot, -⟩ | ⟨_, elements', heq, rfl, hforms⟩)
      · exact absurd rfl (hnot elements)
      · cases heq
        exact .echo (tagForm_echo elements) hjoin (by simpa using hne)
          (List.forall₂_map_left_iff.2 hforms)
  · have hnot : ∀ elements, t ≠ .echo elements := fun elements heq => hecho ⟨elements, heq⟩
    have hself := h.grammar_chars_of_ne_echo he hnot
    constructor
    · intro h'
      exact .inl ⟨hnot, h'.unique hself⟩
    · rintro (⟨-, rfl⟩ | ⟨elements, _, rfl, -⟩)
      · exact hself
      · exact absurd rfl (hnot elements)

theorem grammar_chars (h : TagGrammar tag t) (he : Enclosed tag)
    (hfinite : ∀ e ∈ t.elements, e.isFinite = true) : TagGrammar t.chars t := by
  rw [h.grammar_chars_iff he]
  cases t with
  | close => exact .inl ⟨by simp, rfl⟩
  | loop l => exact .inl ⟨by simp, rfl⟩
  | echo elements =>
    refine .inr ⟨elements, elements, rfl, rfl, List.forall₂_same.2 fun e hmem => ?_⟩
    exact (h.fromTag he e hmem).wordForm (hfinite e hmem)

end TagGrammar

end Stencil
