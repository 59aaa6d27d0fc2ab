import Mathlib.Tactic.NormNum
import Stencil.Number.Literal
import Stencil.Proofs.Text.Span

/-!
# The grammar of number literals

What an integer and a decimal literal are, with the number that each one denotes, told by their
parts: a sign, digits, a point, an exponent. The readers of `Stencil.Number.Literal` take the parts
off one after the other; each of them is shown here to read its part of the grammar and nothing
else, up to `Literal.integer?_eq_some_iff` and `Literal.bareDouble?_eq_some_iff`.
-/

set_option autoImplicit false

namespace Stencil

/-! ## Runs of digits -/

/-- Characters that are all ASCII digits, perhaps none. Other digits can stand in names, but not in
a number. -/
def IsDigits (cs : List Char) : Prop := ∀ c ∈ cs, c.isDigit = true

namespace IsDigits

theorem nil : IsDigits [] := fun _ hmem => absurd hmem (by simp)

theorem append {cs ds : List Char} (hc : IsDigits cs) (hd : IsDigits ds) : IsDigits (cs ++ ds) := by
  intro c hmem
  rcases List.mem_append.1 hmem with h | h
  · exact hc c h
  · exact hd c h

theorem take {cs : List Char} (h : IsDigits cs) (n : Nat) : IsDigits (cs.take n) :=
  fun c hmem => h c (List.mem_of_mem_take hmem)

theorem drop {cs : List Char} (h : IsDigits cs) (n : Nat) : IsDigits (cs.drop n) :=
  fun c hmem => h c (List.mem_of_mem_drop hmem)

theorem of_takeWhile (cs : List Char) : IsDigits (cs.takeWhile Char.isDigit) :=
  fun _ hmem => List.mem_takeWhile_imp hmem

end IsDigits

/-! ## The parts of a literal -/

/-- An optional sign, and whether it is a minus. -/
inductive SignForm : List Char → Bool → Prop
  | absent : SignForm [] false
  | plus : SignForm ['+'] false
  | minus : SignForm ['-'] true

/-- An integer literal and its value: an optional sign, and digits. Zeros in front are allowed, so a
number has many literals, of which one is written. -/
inductive IntegerForm : List Char → Int → Prop
  | mk {sign digits : List Char} {negative : Bool} (hs : SignForm sign negative)
      (hd : IsDigits digits) (hne : digits ≠ []) :
      IntegerForm (sign ++ digits)
        (if negative then -(Nat.ofDigitChars 10 digits 0 : Int)
          else Nat.ofDigitChars 10 digits 0)

/-- What may stand behind the digits before the point: nothing, or the point and more digits. -/
inductive FractionForm : List Char → List Char → Prop
  | absent : FractionForm [] []
  | point {digits : List Char} (hd : IsDigits digits) : FractionForm ('.' :: digits) digits

/-- What may stand behind all digits: nothing, or a mark and the power of ten. -/
inductive ExponentForm : List Char → Int → Prop
  | absent : ExponentForm [] 0
  | power {mark : Char} {text : List Char} {power : Int} (hm : mark = 'e' ∨ mark = 'E')
      (hp : IntegerForm text power) : ExponentForm (mark :: text) power

/-- A decimal literal without its sign, and the decimal that it denotes. There must be a digit on
one of the two sides of the point, it does not matter on which. -/
inductive MagnitudeForm : List Char → Decimal → Prop
  | mk {whole point fraction exponent : List Char} {power : Int} (hw : IsDigits whole)
      (hf : FractionForm point fraction) (he : ExponentForm exponent power)
      (hne : whole ++ fraction ≠ []) :
      MagnitudeForm (whole ++ point ++ exponent)
        ⟨Nat.ofDigitChars 10 (whole ++ fraction) 0, power - fraction.length⟩

/-- A decimal literal and the double nearest to what it denotes. The sign is put on after rounding,
so that a negative zero has a literal. -/
inductive DecimalForm : List Char → Double → Prop
  | mk {sign text : List Char} {negative : Bool} {d : Decimal} (hs : SignForm sign negative)
      (hm : MagnitudeForm text d) : DecimalForm (sign ++ text) (d.toDouble negative)

/-! ## Where a part begins -/

theorem ExponentForm.head {cs : List Char} {power : Int} (h : ExponentForm cs power) :
    cs.head?.all fun c => !c.isDigit && c != '.' := by
  cases h with
  | absent => rfl
  | power hm _ => rcases hm with rfl | rfl <;> rfl

theorem ExponentForm.head_isDigit {cs : List Char} {power : Int} (h : ExponentForm cs power) :
    cs.head?.all (!·.isDigit) := by
  cases h with
  | absent => rfl
  | power hm _ => rcases hm with rfl | rfl <;> rfl

theorem not_sign_of_isDigit {c : Char} (h : c.isDigit = true) : (c != '+' && c != '-') = true := by
  rw [Bool.and_eq_true, bne_iff_ne, bne_iff_ne]
  refine ⟨?_, ?_⟩
  · rintro rfl
    exact absurd h (by decide)
  · rintro rfl
    exact absurd h (by decide)

theorem MagnitudeForm.head {cs : List Char} {d : Decimal} (h : MagnitudeForm cs d) :
    cs.head?.all fun c => c != '+' && c != '-' := by
  obtain ⟨hw, hf, -, hne⟩ := h
  rename_i whole point fraction exponent power
  cases whole with
  | nil =>
    cases hf with
    | absent => exact absurd rfl hne
    | point _ => rfl
  | cons c whole => exact not_sign_of_isDigit (hw c (by simp))

/-- What a number literal can start with. -/
def isNumberHead (c : Char) : Bool := c.isDigit || ['+', '-', '.'].contains c

theorem IsDigits.head {cs : List Char} (h : IsDigits cs) (hne : cs ≠ []) :
    cs.head?.any isNumberHead := by
  cases cs with
  | nil => exact absurd rfl hne
  | cons c cs => simp [isNumberHead, h c List.mem_cons_self]

theorem IntegerForm.head {cs : List Char} {n : Int} (h : IntegerForm cs n) :
    cs.head?.any isNumberHead := by
  obtain ⟨hs, hd, hne⟩ := h
  cases hs with
  | absent => exact hd.head hne
  | plus => rfl
  | minus => rfl

theorem DecimalForm.head {cs : List Char} {x : Double} (h : DecimalForm cs x) :
    cs.head?.any isNumberHead := by
  obtain ⟨hs, hw, hf, -, hne⟩ := h
  rename_i whole point fraction exponent power
  cases hs with
  | absent =>
    cases whole with
    | nil =>
      cases hf with
      | absent => exact absurd rfl hne
      | point _ => rfl
    | cons c whole => exact hw.head (by simp)
  | plus => rfl
  | minus => rfl

theorem DecimalForm.integerForm_of_singleton {c : Char} {x : Double} (h : DecimalForm [c] x) :
    ∃ n, IntegerForm [c] n := by
  generalize hcs : [c] = cs at h
  obtain ⟨hs, hw, hf, he, hne⟩ := h
  rename_i sign negative whole point fraction exponent power
  have hlength := congrArg List.length hcs
  simp only [List.length_append, List.length_singleton] at hlength
  cases hf with
  | point hd =>
    -- With a point there would have to be a digit beside it.
    have hpos : 0 < (whole ++ fraction).length := List.length_pos_iff.2 hne
    simp only [List.length_append, List.length_cons] at hpos hlength
    omega
  | absent =>
    have hwhole : whole ≠ [] := by simpa using hne
    have hpos : 0 < whole.length := List.length_pos_iff.2 hwhole
    obtain rfl : sign = [] := List.length_eq_zero_iff.1 (by omega)
    obtain rfl : exponent = [] := List.length_eq_zero_iff.1 (by omega)
    exact ⟨_, by simpa [hcs] using IntegerForm.mk .absent hw hwhole⟩

/-! ## Signs and integers -/

namespace Literal

theorem signForm_splitSign (cs : List Char) :
    ∃ sign, SignForm sign (splitSign cs).1 ∧ cs = sign ++ (splitSign cs).2 := by
  unfold splitSign
  split
  · exact ⟨['+'], .plus, rfl⟩
  · exact ⟨['-'], .minus, rfl⟩
  · exact ⟨[], .absent, rfl⟩

theorem splitSign_append {sign cs : List Char} {negative : Bool} (hs : SignForm sign negative)
    (hcs : cs.head?.all fun c => c != '+' && c != '-') :
    splitSign (sign ++ cs) = (negative, cs) := by
  cases hs with
  | absent =>
    rw [List.nil_append, splitSign]
    · intro rest hrest
      rw [hrest] at hcs
      exact absurd hcs (by simp)
    · intro rest hrest
      rw [hrest] at hcs
      exact absurd hcs (by simp)
  | plus => rfl
  | minus => rfl

theorem natural?_eq_some_iff {cs : List Char} {n : Nat} :
    natural? cs = some n ↔ IsDigits cs ∧ cs ≠ [] ∧ Nat.ofDigitChars 10 cs 0 = n := by
  have hall : cs.all Char.isDigit = true ↔ IsDigits cs := List.all_eq_true
  unfold natural?
  split
  · rename_i h
    rw [Bool.and_eq_true, hall] at h
    simp [h.2, show cs ≠ [] by simpa using h.1]
  · rename_i h
    rw [Bool.and_eq_true, hall] at h
    refine ⟨fun hn => absurd hn (by simp), fun hn => absurd ⟨?_, hn.1⟩ h⟩
    simpa using hn.2.1

theorem integer?_eq_some_iff {cs : List Char} {n : Int} :
    integer? cs = some n ↔ IntegerForm cs n := by
  constructor
  · intro h
    obtain ⟨sign, hsign, hcs⟩ := signForm_splitSign cs
    rw [integer?] at h
    generalize splitSign cs = parts at *
    subst hcs
    obtain ⟨m, hm, rfl⟩ := Option.map_eq_some_iff.1 h
    obtain ⟨hdigits, hne, rfl⟩ := natural?_eq_some_iff.1 hm
    exact .mk hsign hdigits hne
  · rintro ⟨hs, hd, hne⟩
    rename_i sign digits negative
    have hhead : digits.head?.all fun c => c != '+' && c != '-' := by
      cases digits with
      | nil => rfl
      | cons c digits => exact not_sign_of_isDigit (hd c (by simp))
    rw [integer?, splitSign_append hs hhead]
    dsimp only
    rw [natural?_eq_some_iff.2 ⟨hd, hne, rfl⟩]
    rfl

/-! ## Decimals -/

theorem exponent?_eq_some_iff {cs : List Char} {power : Int} :
    exponent? cs = some power ↔ ExponentForm cs power := by
  constructor
  · intro h
    cases cs with
    | nil =>
      obtain rfl : 0 = power := Option.some.inj h
      exact .absent
    | cons c rest =>
      rw [exponent?] at h
      split at h
      · rename_i hmark
        exact .power hmark (integer?_eq_some_iff.1 h)
      · exact absurd h (by simp)
  · intro h
    cases h with
    | absent => rfl
    | power hm hp => rw [exponent?, if_pos hm, integer?_eq_some_iff.2 hp]

theorem fractionForm_splitFraction (cs : List Char) :
    ∃ point, FractionForm point (splitFraction cs).1 ∧ cs = point ++ (splitFraction cs).2 := by
  unfold splitFraction
  split
  · rename_i rest
    refine ⟨'.' :: rest.takeWhile Char.isDigit, .point (IsDigits.of_takeWhile rest), ?_⟩
    rw [List.cons_append, List.takeWhile_append_dropWhile]
  · exact ⟨[], .absent, rfl⟩

theorem splitFraction_append {point fraction exponent : List Char} {power : Int}
    (hf : FractionForm point fraction) (he : ExponentForm exponent power) :
    splitFraction (point ++ exponent) = (fraction, exponent) := by
  have hhead := he.head
  cases hf with
  | absent =>
    rw [List.nil_append, splitFraction]
    intro rest hrest
    rw [hrest] at hhead
    exact absurd hhead (by simp)
  | point hd =>
    rw [List.cons_append, splitFraction, takeWhile_span hd he.head_isDigit,
      dropWhile_span hd he.head_isDigit]

/-- The decimals that are read are those of the grammar, and the grammar says what they mean. The
reader takes them apart from the left; each part has such a lemma of its own above. -/
theorem decimal?_eq_some_iff {cs : List Char} {d : Decimal} :
    decimal? cs = some d ↔ MagnitudeForm cs d := by
  constructor
  · intro h
    have hsplit := List.takeWhile_append_dropWhile (p := Char.isDigit) (l := cs)
    have hwhole := IsDigits.of_takeWhile cs
    obtain ⟨point, hf, hpoint⟩ := fractionForm_splitFraction (cs.dropWhile Char.isDigit)
    unfold decimal? at h
    dsimp only at h
    split at h
    · exact absurd h (by simp)
    · rename_i hne
      obtain ⟨power, hpower, rfl⟩ := Option.map_eq_some_iff.1 h
      have hform := MagnitudeForm.mk hwhole hf (exponent?_eq_some_iff.1 hpower) fun hnil => hne (by
        simpa using List.append_eq_nil_iff.1 hnil)
      rwa [List.append_assoc, ← hpoint, hsplit] at hform
  · rintro ⟨hw, hf, he, hne⟩
    rename_i whole point fraction exponent power
    have hhead : (point ++ exponent).head?.all (!·.isDigit) := by
      cases hf with
      | absent => exact he.head_isDigit
      | point _ => rfl
    rw [decimal?, List.append_assoc, takeWhile_span hw hhead, dropWhile_span hw hhead,
      splitFraction_append hf he]
    dsimp only
    rw [if_neg, exponent?_eq_some_iff.2 he]
    · rfl
    · simpa [List.append_eq_nil_iff] using hne

theorem bareDouble?_eq_some_iff {cs : List Char} {x : Double} :
    bareDouble? cs = some x ↔ DecimalForm cs x := by
  constructor
  · intro h
    obtain ⟨sign, hsign, hcs⟩ := signForm_splitSign cs
    rw [bareDouble?] at h
    generalize splitSign cs = parts at *
    subst hcs
    obtain ⟨d, hd, rfl⟩ := Option.map_eq_some_iff.1 h
    exact .mk hsign (decimal?_eq_some_iff.1 hd)
  · rintro ⟨hs, hm⟩
    rw [bareDouble?, splitSign_append hs hm.head]
    dsimp only
    rw [decimal?_eq_some_iff.2 hm]
    rfl

end Literal

/-! ## The characters of a literal -/

/-- A character that a number literal can hold. -/
def isNumeral (c : Char) : Bool := c.isDigit || ['+', '-', '.', 'e', 'E'].contains c

def IsNumeral (cs : List Char) : Prop := ∀ c ∈ cs, isNumeral c = true

namespace IsNumeral

theorem append {cs ds : List Char} (hc : IsNumeral cs) (hd : IsNumeral ds) :
    IsNumeral (cs ++ ds) := by
  intro c hmem
  rcases List.mem_append.1 hmem with h | h
  · exact hc c h
  · exact hd c h

theorem cons {c : Char} {cs : List Char} (hc : isNumeral c = true) (hcs : IsNumeral cs) :
    IsNumeral (c :: cs) := by
  intro d hmem
  rcases List.mem_cons.1 hmem with rfl | h
  · exact hc
  · exact hcs d h

end IsNumeral

theorem IsDigits.isNumeral {cs : List Char} (h : IsDigits cs) : IsNumeral cs :=
  fun c hmem => by simp [Stencil.isNumeral, h c hmem]

theorem SignForm.isNumeral {cs : List Char} {negative : Bool} (h : SignForm cs negative) :
    IsNumeral cs := by
  cases h with
  | absent => exact IsDigits.nil.isNumeral
  | plus => exact .cons rfl IsDigits.nil.isNumeral
  | minus => exact .cons rfl IsDigits.nil.isNumeral

theorem IntegerForm.isNumeral {cs : List Char} {n : Int} (h : IntegerForm cs n) :
    IsNumeral cs := by
  obtain ⟨hs, hd, -⟩ := h
  exact hs.isNumeral.append hd.isNumeral

/-- An integer literal holds digits and signs, but no point and no mark of an exponent. By these two
characters a text is told to be read as a double. -/
theorem IntegerForm.not_mem {cs : List Char} {n : Int} (h : IntegerForm cs n) {c : Char}
    (hdigit : c.isDigit = false) (hsign : c ∉ ['+', '-']) : c ∉ cs := by
  obtain ⟨hs, hd, -⟩ := h
  rw [List.mem_append, not_or]
  refine ⟨?_, fun hmem => absurd (hd c hmem) (by simp [hdigit])⟩
  cases hs <;> simp_all

theorem FractionForm.isNumeral {point fraction : List Char} (h : FractionForm point fraction) :
    IsNumeral point := by
  cases h with
  | absent => exact IsDigits.nil.isNumeral
  | point hd => exact .cons rfl hd.isNumeral

theorem ExponentForm.isNumeral {cs : List Char} {power : Int} (h : ExponentForm cs power) :
    IsNumeral cs := by
  cases h with
  | absent => exact IsDigits.nil.isNumeral
  | power hm hp =>
    rcases hm with rfl | rfl
    · exact .cons rfl hp.isNumeral
    · exact .cons rfl hp.isNumeral

theorem MagnitudeForm.isNumeral {cs : List Char} {d : Decimal} (h : MagnitudeForm cs d) :
    IsNumeral cs := by
  obtain ⟨hw, hf, he, -⟩ := h
  exact (hw.isNumeral.append hf.isNumeral).append he.isNumeral

theorem DecimalForm.isNumeral {cs : List Char} {x : Double} (h : DecimalForm cs x) :
    IsNumeral cs := by
  obtain ⟨hs, hm⟩ := h
  exact hs.isNumeral.append hm.isNumeral

end Stencil
