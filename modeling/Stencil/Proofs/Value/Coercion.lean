import Stencil.Proofs.Number.Order
import Stencil.Proofs.Value.Arithmetic
import Stencil.Proofs.Value.ReadBack

/-!
# The two ways from a text to a double

Where only a double is of use a text is read as one at once, and where the kind of number counts an
integer literal becomes a whole number first, which is turned into a double later. Both ways round
to the same double: as a decimal, digits alone are rounded like the number that they denote
(`Decimal.toDouble_whole`). They part at the sign of a zero, which a whole number does not have,
and at numbers beyond all doubles, where a literal is infinite. Apart from these, a value and the
number that it is read as can stand for each other as operands (`Value.alike_of_toNumber`).
-/

set_option autoImplicit false

namespace Stencil

open Double (Fits wholeRank)

/-! ## Digits alone -/

theorem Decimal.toDouble_whole (negative : Bool) (m : Nat) :
    toDouble negative ⟨m, 0⟩ = Double.ofRank negative (wholeRank m) := by
  by_cases hzero : m = 0
  · rw [toDouble, if_pos hzero, hzero, Double.wholeRank_zero]
  have hpos : 0 < size m := Nat.length_toDigits_pos
  rw [toDouble, if_neg hzero]
  by_cases hfar : 310 ≤ (size m : Int) + 0
  · -- What is not even computed would come to infinity as well.
    have hpow : 2 ^ 1024 ≤ 10 ^ 309 := by decide +kernel
    have hle : 10 ^ 309 ≤ m := by
      by_contra hlt
      have hsize := (size_le_iff (by decide)).2 (Nat.lt_of_not_le hlt)
      omega
    have hrank := Double.rankCount_le_wholeRank (Nat.le_trans hpow hle)
    rw [if_pos hfar, Double.ofRank, dif_neg (Nat.not_lt.2 hrank)]
  · have hnear : ¬ (size m : Int) + 0 ≤ -324 := by omega
    have hquotient : Decimal.quotient ⟨m, 0⟩ = (m, 1) := by simp [quotient]
    rw [if_neg hfar, if_neg hnear, hquotient]
    rfl

/-! ## Integer literals as decimal literals -/

def hasMinus (cs : List Char) : Bool := cs.head? == some '-'

theorem IsDigits.hasMinus_eq_false {digits : List Char} (h : IsDigits digits) :
    hasMinus digits = false := by
  cases digits with
  | nil => rfl
  | cons c digits =>
    have hc := not_sign_of_isDigit (h c List.mem_cons_self)
    simp only [Bool.and_eq_true, bne_iff_ne] at hc
    simp [hasMinus, hc.2]

namespace IntegerForm

variable {cs : List Char} {n : Int}

theorem hasMinus_eq (h : IntegerForm cs n) (hn : n ≠ 0) : hasMinus cs = decide (n < 0) := by
  obtain ⟨hs, hd, -⟩ := h
  rename_i sign digits negative
  cases hs with
  | absent =>
    rw [List.nil_append, hd.hasMinus_eq_false]
    simp
  | plus => simp [hasMinus]
  | minus =>
    have hneg : -(Nat.ofDigitChars 10 digits 0 : Int) < 0 := by
      simp only [if_true] at hn
      omega
    exact (decide_eq_true hneg).symm

theorem decimalForm (h : IntegerForm cs n) :
    DecimalForm cs (Double.ofRank (hasMinus cs) (wholeRank n.natAbs)) := by
  obtain ⟨hs, hd, hne⟩ := h
  rename_i sign digits negative
  have hmagnitude : MagnitudeForm digits ⟨Nat.ofDigitChars 10 digits 0, 0⟩ := by
    have hform := MagnitudeForm.mk hd .absent .absent (by simpa using hne)
    simpa using hform
  have hform := DecimalForm.mk hs hmagnitude
  rw [Decimal.toDouble_whole] at hform
  have hnegative : hasMinus (sign ++ digits) = negative := by
    cases hs with
    | absent => exact hd.hasMinus_eq_false
    | plus => rfl
    | minus => rfl
  have habs : Int.natAbs (if negative then -(Nat.ofDigitChars 10 digits 0 : Int)
      else Nat.ofDigitChars 10 digits 0) = Nat.ofDigitChars 10 digits 0 := by
    cases negative <;> simp
  rw [hnegative, habs]
  exact hform

end IntegerForm

/-! ## Values and the numbers that they are read as -/

namespace Number

variable {s : String} {n : Int} {x : Double}

theorem integerForm_of_ofText (h : ofText s = .ok (.integer n)) :
    IntegerForm (trim s.toList) n := by
  rw [ofText] at h
  split at h
  · obtain ⟨x, -, hx⟩ := exists_of_elim_eq_ok h
    exact absurd hx (by simp)
  · obtain ⟨m, hm, hn⟩ := exists_of_elim_eq_ok h
    cases hn
    exact Literal.integer?_eq_some_iff.1 hm

theorem readDouble?_of_ofText (h : ofText s = .ok (.double x)) : readDouble? s = some x := by
  rw [ofText] at h
  split at h
  · obtain ⟨y, hy, hx⟩ := exists_of_elim_eq_ok h
    cases hx
    exact hy
  · obtain ⟨m, -, hm⟩ := exists_of_elim_eq_ok h
    exact absurd hm (by simp)

theorem toDouble_integer (h : Fits n) :
    (integer n).toDouble = .ok (Double.ofRank (n < 0) (wholeRank n.natAbs)) := by
  rw [toDouble, Double.ofInt?, Double.ofInt_eq, Double.ofRank_of_lt _ h]
  rfl

theorem toDouble_zero : (integer 0).toDouble = .ok Double.zero := by
  rw [toDouble_integer (Double.fits_of_le (by decide)), Int.natAbs_zero, Double.wholeRank_zero]
  rfl

end Number

namespace Value

/-- A text that is an integer literal of zero and has a minus sign. Whole numbers have one zero
only, so reading the text as a number and then as a double loses the sign. -/
def IsMinusZero (v : Value) : Prop :=
  ∃ s, v = .text s ∧ v.toNumber = .ok (.integer 0) ∧ hasMinus (trim s.toList) = true

/-- A text that is an integer literal of a number that no double can hold. -/
def IsBeyondDoubles (v : Value) : Prop :=
  ∃ s n, v = .text s ∧ v.toNumber = .ok (.integer n) ∧ ¬ Fits n

variable {v w : Value} {a : Number} {s : String} {n : Int}

/-- A text without a point and without a capital `E`, where only a double is of use. It is read by
the grammar of decimals then, which has a sign for zero, and not as the whole number. -/
theorem toDouble_text (h : Number.ofText s = .ok (.integer n)) :
    (text s).toDouble = .ok (Double.ofRank (hasMinus (trim s.toList)) (wholeRank n.natAbs)) := by
  have hform := (Number.integerForm_of_ofText h).decimalForm
  rw [toDouble, readDouble?, Literal.bareDouble?_eq_some_iff.2 hform]
  rfl

theorem toDouble_eq_of_toNumber (h : v.toNumber = .ok a) (hzero : ¬ v.IsMinusZero)
    (hbeyond : ¬ v.IsBeyondDoubles) : v.toDouble = a.toDouble := by
  cases v with
  | absent =>
    cases h
    exact Number.toDouble_zero.symm
  | integer n =>
    cases h
    rfl
  | double x =>
    cases h
    rfl
  | foreign kind => exact absurd h (by simp [toNumber])
  | text s =>
    cases a with
    | double x =>
      rw [toDouble, Number.readDouble?_of_ofText h]
      rfl
    | integer n =>
      have hfits : Fits n := by
        by_contra hn
        exact hbeyond ⟨s, n, rfl, h, hn⟩
      have hsign : hasMinus (trim s.toList) = decide (n < 0) := by
        by_cases hn : n = 0
        · -- A zero does not show the sign that it was written with.
          subst hn
          exact Bool.eq_false_iff.2 fun hminus => hzero ⟨s, rfl, h, hminus⟩
        · exact (Number.integerForm_of_ofText h).hasMinus_eq hn
      rw [toDouble_text h, Number.toDouble_integer hfits, hsign]

theorem toDouble_of_isMinusZero (h : v.IsMinusZero) : v.toDouble = .ok Double.zero.neg := by
  obtain ⟨s, rfl, hnumber, hminus⟩ := h
  rw [toDouble_text hnumber, hminus, Int.natAbs_zero, Double.wholeRank_zero]
  rfl

/-! ## Operands -/

/-- Values that can stand for each other as operands. As the right one they do the same. As the left
one they do too, or the right one is refused, and they stay where they are. -/
structure Alike (v w : Value) : Prop where
  right : ∀ (op : Operator) (l : Value) (rest : List Value),
    op.run (v :: l :: rest) = op.run (w :: l :: rest)
  left : ∀ (op : Operator) (r : Value) (rest : List Value),
    op.run (r :: v :: rest) = op.run (r :: w :: rest) ∨
      ∃ fault, op.run (r :: v :: rest) = (.error fault, v :: rest) ∧
        op.run (r :: w :: rest) = (.error fault, w :: rest)

theorem alike_of_toDouble (h : v.toDouble = w.toDouble) : v.Alike w := by
  constructor
  · intro op l rest
    rw [Operator.run, Operator.run, h]
  · intro op r rest
    rw [Operator.run, Operator.run]
    cases r.toDouble with
    | error fault => exact .inr ⟨.value fault, rfl, rfl⟩
    | ok y => exact .inl (by rw [h])

theorem toNumber_integerText (n : Int) : (text (integerText n)).toNumber = .ok (.integer n) := by
  refine Number.ofText_of_integerForm ?_
  rw [integerText, String.toList_ofList]
  exact integerForm_integerChars n

theorem not_isMinusZero_integerText (n : Int) : ¬ (text (integerText n)).IsMinusZero := by
  rintro ⟨s, hs, hnumber, hminus⟩
  cases hs
  rw [toNumber_integerText] at hnumber
  cases hnumber
  exact absurd hminus (by decide)

theorem not_isBeyondDoubles_of_fits (h : v.toNumber = .ok (.integer n)) (hn : Fits n) :
    ¬ v.IsBeyondDoubles := by
  rintro ⟨s, m, -, hnumber, hm⟩
  rw [h] at hnumber
  cases hnumber
  exact hm hn

theorem toDouble_integerText (h : Fits n) :
    (text (integerText n)).toDouble = (integer n).toDouble :=
  toDouble_eq_of_toNumber (toNumber_integerText n) (not_isMinusZero_integerText n)
    (not_isBeyondDoubles_of_fits (toNumber_integerText n) h)

/-- Beyond all doubles there is none for the number, but still one for its text: a literal that is
too large is read as an infinity. -/
theorem toDouble_integerText_ne (h : ¬ Fits n) :
    (text (integerText n)).toDouble ≠ (Number.integer n).toDouble := by
  have hnumber : (Number.integer n).toDouble = .error .tooLarge := toDouble_integer_of_not_fits h
  rw [toDouble_text (toNumber_integerText n), hnumber]
  simp

/-- A value that is read as a number has that number's double, and is as good an operand. Two kinds
of texts are set apart, integer literals both: a zero with a minus sign is the negative zero as a
double, but the zero of whole numbers has no sign; and nothing is said here of literals beyond all
doubles. In particular the decimal text of a whole number can stand for the number, if that is not
too large. -/
theorem alike_of_toNumber (h : v.toNumber = .ok a) :
    (¬ v.IsMinusZero → ¬ v.IsBeyondDoubles → v.toDouble = a.toDouble ∧ v.Alike a.toValue) ∧
      (v.IsMinusZero → v.toDouble = .ok Double.zero.neg ∧ a.toDouble = .ok Double.zero) ∧
      ∀ n, a = .integer n → Fits n → (text (integerText n)).Alike a.toValue := by
  refine ⟨?_, ?_, ?_⟩
  · intro hzero hbeyond
    have hsame := toDouble_eq_of_toNumber h hzero hbeyond
    exact ⟨hsame, alike_of_toDouble (hsame.trans (toDouble_toValue a).symm)⟩
  · intro hzero
    refine ⟨toDouble_of_isMinusZero hzero, ?_⟩
    obtain ⟨s, rfl, hnumber, -⟩ := hzero
    rw [h] at hnumber
    cases hnumber
    exact Number.toDouble_zero
  · intro n ha hn
    subst ha
    exact alike_of_toDouble (toDouble_integerText hn)

theorem alike_of_toNumber_padded :
    (text " +007\n").toNumber = .ok (.integer 7) ∧
      (text " +007\n").toDouble = (Number.integer 7).toDouble ∧
      (text " +007\n").Alike (.integer 7) := by
  have h : (text " +007\n").toNumber = .ok (.integer 7) := by decide
  have hzero : ¬ (text " +007\n").IsMinusZero := by
    rintro ⟨s, -, hnumber, -⟩
    rw [h] at hnumber
    exact absurd hnumber (by decide)
  have hbeyond := not_isBeyondDoubles_of_fits h (Double.fits_of_le (by decide))
  exact ⟨h, (alike_of_toNumber h).1 hzero hbeyond⟩

/-- The literal `-0` is a zero as a number and the negative zero as a double; and that of
`10 ^ 309` is a double, while the number has none. -/
theorem not_toDouble_eq_of_toNumber :
    ((text "-0").toNumber = .ok (.integer 0) ∧
      (text "-0").toDouble ≠ (Number.integer 0).toDouble) ∧
    ((text (integerText (10 ^ 309))).toNumber = .ok (.integer (10 ^ 309)) ∧
      (text (integerText (10 ^ 309))).toDouble ≠ (Number.integer (10 ^ 309)).toDouble) := by
  refine ⟨?_, ?_⟩
  · have h : (text "-0").toNumber = .ok (.integer 0) := by decide
    have hzero : (text "-0").IsMinusZero := ⟨"-0", rfl, h, by decide⟩
    refine ⟨h, ?_⟩
    rw [toDouble_of_isMinusZero hzero, Number.toDouble_zero]
    decide
  · have hlarge : ¬ Fits (10 ^ 309) := fun hfits =>
      absurd (Double.natAbs_lt_of_fits hfits) (by decide +kernel)
    exact ⟨toNumber_integerText _, toDouble_integerText_ne hlarge⟩

end Value

end Stencil
