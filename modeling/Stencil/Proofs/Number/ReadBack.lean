import Mathlib.Tactic.Ring
import Stencil.Number.Layout
import Stencil.Proofs.Number.Exact
import Stencil.Proofs.Number.Grammar

/-!
# Written numbers read back

Every whole number and every finite double is written as a literal with that value:
`integerForm_integerChars` and `decimalForm_chars`. The second one rests on
`Decimal.toDouble_shortest` for the digits themselves; what is left to show is that each layout
only moves the point, or adds zeros that do not count.
-/

set_option autoImplicit false

namespace Stencil

/-! ## Whole numbers -/

theorem IsDigits.toDigits (n : Nat) : IsDigits (Nat.toDigits 10 n) :=
  fun _ hmem => Nat.isDigit_of_mem_toDigits (by decide) (by decide) hmem

theorem IsDigits.zeros (n : Nat) : IsDigits (DoubleLayout.zeros n) := by
  intro c hmem
  rw [List.eq_of_mem_replicate hmem]
  decide

theorem toDigits_ne_nil (n : Nat) : Nat.toDigits 10 n ≠ [] :=
  List.ne_nil_of_length_pos Nat.length_toDigits_pos

theorem SignForm.signText (negative : Bool) :
    SignForm (DoubleLayout.signText negative) negative := by
  cases negative with
  | true => exact .minus
  | false => exact .absent

theorem integerForm_integerChars (n : Int) : IntegerForm (integerChars n) n := by
  have hform := IntegerForm.mk (SignForm.signText (decide (n < 0))) (IsDigits.toDigits n.natAbs)
    (toDigits_ne_nil n.natAbs)
  rw [Nat.ofDigitChars_ten_toDigits] at hform
  by_cases h : n < 0
  · simp only [h, decide_true, if_true] at hform
    rw [show -(n.natAbs : Int) = n by omega] at hform
    simpa [integerChars, h, DoubleLayout.signText] using hform
  · simp only [h, decide_false, Bool.false_eq_true, if_false] at hform
    rw [show (n.natAbs : Int) = n by omega] at hform
    simpa [integerChars, h, DoubleLayout.signText] using hform

/-! ## Literals with a point -/

namespace DoubleLayout

theorem exponentText_eq (power : Int) : template.exponentText power = integerChars power := by
  by_cases h : power < 0 <;> simp [exponentText, integerChars, template, h]

/-- Digits on both sides of a point, those before it not left out, and perhaps an exponent: the
form of every finite double that is written, and the decimal that it denotes. -/
inductive PointedForm : List Char → Decimal → Prop
  | mk {whole fraction exponent : List Char} {power : Int} (hw : IsDigits whole)
      (hne : whole ≠ []) (hf : IsDigits fraction) (he : ExponentForm exponent power) :
      PointedForm (whole ++ '.' :: (fraction ++ exponent))
        ⟨Nat.ofDigitChars 10 (whole ++ fraction) 0, power - fraction.length⟩

theorem PointedForm.magnitude {text : List Char} {d : Decimal} (h : PointedForm text d) :
    MagnitudeForm text d := by
  obtain ⟨hw, hne, hf, he⟩ := h
  have hform := MagnitudeForm.mk hw (.point hf) he (by simp [hne])
  simpa using hform

theorem PointedForm.mem_point {text : List Char} {d : Decimal} (h : PointedForm text d) :
    '.' ∈ text := by
  obtain ⟨-, -, -, -⟩ := h
  simp

/-! ## The two layouts of the digits -/

@[simp] theorem length_zeros (n : Nat) : (zeros n).length = n := List.length_replicate

theorem zeros_append_zeros (n m : Nat) : zeros n ++ zeros m = zeros (n + m) :=
  List.replicate_append_replicate

theorem ofDigitChars_append_zeros (ds : List Char) (k : Nat) :
    Nat.ofDigitChars 10 (ds ++ zeros k) 0 = Nat.ofDigitChars 10 ds 0 * 10 ^ k := by
  rw [Nat.ofDigitChars_append, zeros, Nat.ofDigitChars_replicate_zero, Nat.mul_comm]

theorem take_ne_nil {ds : List Char} (h : 0 < ds.length) (k : Nat) : ds.take (k + 1) ≠ [] := by
  cases ds with
  | nil => exact absurd h (by simp)
  | cons d ds => simp

variable (negative : Bool) (n : Nat)

/-- Digits with a point before them, among them or behind them are the same decimal, up to zeros
that the exponent makes up for. -/
theorem pointed_positional (power : Int) :
    ∃ d, PointedForm (positional (Nat.toDigits 10 n) power) d ∧
      d.toDouble negative =
        Decimal.toDouble negative ⟨n, power + 1 - (Nat.toDigits 10 n).length⟩ := by
  have hdigits := IsDigits.toDigits n
  have hvalue : Nat.ofDigitChars 10 (Nat.toDigits 10 n) 0 = n := Nat.ofDigitChars_ten_toDigits
  have hpos : 0 < (Nat.toDigits 10 n).length := Nat.length_toDigits_pos
  have hzero : IsDigits ['0'] := IsDigits.zeros 1
  unfold positional
  generalize Nat.toDigits 10 n = ds at *
  by_cases hp : power < 0
  · -- Zeros stand between the point and the first digit.
    have hfraction := (IsDigits.zeros (-power - 1).toNat).append hdigits
    have hform := PointedForm.mk hzero (by simp) hfraction .absent
    rw [List.append_nil] at hform
    rw [if_pos hp]
    refine ⟨_, hform, ?_⟩
    have hdrop : Nat.ofDigitChars 10 (['0'] ++ (zeros (-power - 1).toNat ++ ds)) 0 = n := by
      rw [← List.append_assoc, Nat.ofDigitChars_append, ofDigitChars_append_zeros]
      simpa [Nat.ofDigitChars_cons] using hvalue
    rw [hdrop]
    congr 2
    simp only [List.length_append, length_zeros]
    omega
  rw [if_neg hp]
  dsimp only
  by_cases hlen : power.toNat + 1 < ds.length
  · -- The point stands among the digits.
    have hne : ds.drop (power.toNat + 1) ≠ [] := by
      intro hnil
      have := List.drop_eq_nil_iff.1 hnil
      omega
    have hform := PointedForm.mk (hdigits.take (power.toNat + 1)) (take_ne_nil hpos _)
      (hdigits.drop (power.toNat + 1)) .absent
    have hpad : power.toNat + 1 - ds.length = 0 := by omega
    rw [List.append_nil] at hform
    rw [hpad, zeros, List.replicate_zero, List.append_nil, if_neg (by simpa using hne)]
    refine ⟨_, hform, ?_⟩
    rw [List.take_append_drop, hvalue]
    congr 2
    simp only [List.length_drop]
    omega
  · -- All digits stand before the point, perhaps with zeros behind them.
    have hnil : ds.drop (power.toNat + 1) = [] := List.drop_eq_nil_iff.2 (by omega)
    have hall : ds.take (power.toNat + 1) = ds := List.take_of_length_le (by omega)
    have hform := PointedForm.mk (hdigits.append (IsDigits.zeros (power.toNat + 1 - ds.length)))
      (by intro h; simp [(List.append_eq_nil_iff.1 h).1] at hpos) hzero .absent
    rw [List.append_nil] at hform
    rw [hnil, hall, List.isEmpty_nil, if_pos rfl]
    refine ⟨_, hform, ?_⟩
    have hzeros : ['0'] = zeros 1 := rfl
    rw [hzeros, List.append_assoc, zeros_append_zeros, ofDigitChars_append_zeros, hvalue,
      ← Decimal.toDouble_mul_pow negative n _ (power.toNat + 1 - ds.length + 1)]
    congr 2
    simp only [length_zeros]
    omega

theorem scientific_template (ds : List Char) (power : Int) :
    template.scientific ds power = ds.take 1 ++ '.' ::
      ((if ds.drop 1 = [] then ['0'] else ds.drop 1) ++ 'E' :: template.exponentText power) := by
  have hmark : template.mark = 'E' := rfl
  have hfraction : template.fraction = true := rfl
  unfold scientific
  rw [hmark, hfraction]
  by_cases h : ds.drop 1 = []
  · simp [h]
  · rw [if_neg h]
    simp_all

theorem pointed_scientific (power : Int) :
    ∃ d, PointedForm (template.scientific (Nat.toDigits 10 n) power) d ∧
      d.toDouble negative =
        Decimal.toDouble negative ⟨n, power + 1 - (Nat.toDigits 10 n).length⟩ := by
  have hdigits := IsDigits.toDigits n
  have hvalue : Nat.ofDigitChars 10 (Nat.toDigits 10 n) 0 = n := Nat.ofDigitChars_ten_toDigits
  have hpos : 0 < (Nat.toDigits 10 n).length := Nat.length_toDigits_pos
  have hexponent : ExponentForm ('E' :: template.exponentText power) power :=
    .power (.inr rfl) (exponentText_eq power ▸ integerForm_integerChars power)
  rw [scientific_template]
  generalize Nat.toDigits 10 n = ds at *
  by_cases hone : ds.drop 1 = []
  · -- A single digit is given the fraction zero.
    have hlen := List.drop_eq_nil_iff.1 hone
    have hall : ds.take 1 = ds := List.take_of_length_le hlen
    rw [if_pos hone]
    refine ⟨_, .mk (hdigits.take 1) (take_ne_nil hpos 0) (IsDigits.zeros 1) hexponent, ?_⟩
    have hzeros : ['0'] = zeros 1 := rfl
    rw [hzeros, hall, ofDigitChars_append_zeros, hvalue,
      ← Decimal.toDouble_mul_pow negative n _ 1]
    congr 2
    simp only [length_zeros]
    omega
  · rw [if_neg hone]
    refine ⟨_, .mk (hdigits.take 1) (take_ne_nil hpos 0) (hdigits.drop 1) hexponent, ?_⟩
    rw [List.take_append_drop, hvalue]
    congr 2
    simp only [List.length_drop]
    omega

/-- The text of a magnitude is a literal with a point, and means that magnitude. Which of the two
layouts it has depends on the power alone, and each has its lemma above. -/
theorem pointed_magnitudeText (rank : Fin Double.rankCount) :
    ∃ d, PointedForm (template.magnitudeText rank) d ∧
      d.toDouble negative = .finite negative rank := by
  rw [← Decimal.toDouble_shortest negative rank]
  unfold magnitudeText
  dsimp only
  generalize Decimal.shortest rank = d
  have hpower : d.exponent + (Nat.toDigits 10 d.digits).length - 1 + 1 -
      (Nat.toDigits 10 d.digits).length = d.exponent := by omega
  split
  · obtain ⟨e, hform, hvalue⟩ := pointed_positional negative d.digits
      (d.exponent + (Nat.toDigits 10 d.digits).length - 1)
    rw [hpower] at hvalue
    exact ⟨e, hform, hvalue⟩
  · obtain ⟨e, hform, hvalue⟩ := pointed_scientific negative d.digits
      (d.exponent + (Nat.toDigits 10 d.digits).length - 1)
    rw [hpower] at hvalue
    exact ⟨e, hform, hvalue⟩

end DoubleLayout

/-- Every finite double, zero of either sign among them, is written as a literal of itself. The sign
is written for itself, in front of the text of the magnitude, and is read so. -/
theorem decimalForm_chars (negative : Bool) (rank : Fin Double.rankCount) :
    DecimalForm (DoubleLayout.template.chars (.finite negative rank)) (.finite negative rank) := by
  obtain ⟨d, hform, hvalue⟩ := DoubleLayout.pointed_magnitudeText negative rank
  have hread := DecimalForm.mk (SignForm.signText negative) hform.magnitude
  rwa [hvalue] at hread

theorem mem_point_chars (negative : Bool) (rank : Fin Double.rankCount) :
    '.' ∈ DoubleLayout.template.chars (.finite negative rank) := by
  obtain ⟨d, hform, -⟩ := DoubleLayout.pointed_magnitudeText negative rank
  exact List.mem_append_right _ hform.mem_point

/-- A finite double is not written as an integer literal, which would not be read as a double. The
point is what makes the difference, and both layouts have one. -/
theorem not_integerForm_chars (negative : Bool) (rank : Fin Double.rankCount) (n : Int) :
    ¬ IntegerForm (DoubleLayout.template.chars (.finite negative rank)) n :=
  fun h => h.not_mem (by decide) (by decide) (mem_point_chars negative rank)

end Stencil
