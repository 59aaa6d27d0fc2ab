import Mathlib.Tactic.NormNum
import Mathlib.Tactic.Ring
import Stencil.Number.Decimal

/-!
# Numbers that are not rounded

A double is written by a decimal that reads back as that double, and two things make it so. A
quotient is rounded by its value alone, however its two parts are scaled, so zeros that are added
to a decimal or taken off it change nothing. And the magnitude of a rank is rounded to that rank,
so the exact decimal of a double, with which the search for few digits ends, reads back too.

The main fact is `Decimal.toDouble_shortest`.
-/

set_option autoImplicit false

namespace Stencil

/-! ## Scaling a quotient -/

theorem roundQuotient_scale (n d : Nat) {k : Nat} (hk : 0 < k) :
    roundQuotient (n * k) (d * k) = roundQuotient n d := by
  have hlow : 2 * (n % d * k) < d * k ↔ 2 * (n % d) < d := by
    rw [← Nat.mul_assoc]
    exact Nat.mul_lt_mul_right hk
  have hhigh : d * k < 2 * (n % d * k) ↔ d < 2 * (n % d) := by
    rw [← Nat.mul_assoc]
    exact Nat.mul_lt_mul_right hk
  simp only [roundQuotient, Nat.mul_div_mul_right n d hk, Nat.mul_mod_mul_right, hlow, hhigh]

namespace Double

theorem nearestRank_eq (n d : Nat) :
    nearestRank n d = (Nat.log2 (n / d) - 52) * 2 ^ 52 +
      roundQuotient n (d * 2 ^ (Nat.log2 (n / d) - 52)) := rfl

theorem nearestRank_scale (n d : Nat) {k : Nat} (hk : 0 < k) :
    nearestRank (n * k) (d * k) = nearestRank n d := by
  rw [nearestRank_eq, nearestRank_eq, Nat.mul_div_mul_right n d hk, Nat.mul_right_comm d k,
    roundQuotient_scale n _ hk]

theorem ofQuotient_scale (negative : Bool) (n d : Nat) {k : Nat} (hk : 0 < k) :
    ofQuotient negative (n * k) (d * k) = ofQuotient negative n d := by
  rw [ofQuotient, ofQuotient, nearestRank_scale n d hk]

theorem ofRank_of_lt (negative : Bool) {rank : Nat} (h : rank < rankCount) :
    ofRank negative rank = .finite negative ⟨rank, h⟩ := dif_pos h

theorem eq_of_ofRank {negative : Bool} {n : Nat} {rank : Fin rankCount}
    (h : ofRank negative n = .finite negative rank) : n = rank.val := by
  by_cases hn : n < rankCount
  · rw [ofRank_of_lt negative hn] at h
    injection h with _ hrank
    rw [← hrank]
  · rw [ofRank, dif_neg hn] at h
    exact absurd h (by simp)

/-! ## The magnitude of a rank -/

theorem binade_eq (rank : Nat) : binade rank = rank / 2 ^ 52 - 1 := rfl

theorem significand_eq (rank : Nat) : significand rank = rank - binade rank * 2 ^ 52 := rfl

theorem magnitude_eq (rank : Nat) : magnitude rank = significand rank * 2 ^ binade rank := rfl

theorem significand_lt (rank : Nat) : significand rank < 2 ^ 53 := by
  rw [significand_eq, binade_eq]
  omega

theorem le_significand {rank : Nat} (h : binade rank ≠ 0) : 2 ^ 52 ≤ significand rank := by
  rw [significand_eq]
  rw [binade_eq] at *
  omega

theorem binade_add_significand (rank : Nat) : binade rank * 2 ^ 52 + significand rank = rank := by
  rw [significand_eq, binade_eq]
  omega

/-- The magnitude of a rank lies in the rank's own binade, so the power that is taken out of it
before rounding is the one that was put in. -/
theorem log2_magnitude (rank : Nat) : Nat.log2 (magnitude rank) - 52 = binade rank := by
  by_cases hb : binade rank = 0
  · -- In the first binade there may be fewer digits, down to none.
    have hlt : magnitude rank < 2 ^ 53 := by
      rw [magnitude_eq, hb, Nat.pow_zero, Nat.mul_one]
      exact significand_lt rank
    by_cases hz : magnitude rank = 0
    · rw [hz, hb]
      rfl
    · have := (Nat.log2_lt hz).2 hlt
      omega
  · have hpos : 0 < 2 ^ binade rank := Nat.two_pow_pos _
    have hle : 2 ^ (52 + binade rank) ≤ magnitude rank := by
      rw [Nat.pow_add, magnitude_eq]
      exact Nat.mul_le_mul_right _ (le_significand hb)
    have hlt : magnitude rank < 2 ^ (53 + binade rank) := by
      rw [Nat.pow_add, magnitude_eq]
      exact Nat.mul_lt_mul_of_pos_right (significand_lt rank) hpos
    have hz : magnitude rank ≠ 0 := by
      have := Nat.two_pow_pos (52 + binade rank)
      omega
    have h1 := (Nat.le_log2 hz).2 hle
    have h2 := (Nat.log2_lt hz).2 hlt
    omega

/-- A magnitude is its own nearest one. The quotient is rounded in the binade that the magnitude
itself lies in, and there is nothing to round. -/
theorem nearestRank_magnitude (rank : Nat) : nearestRank (magnitude rank) 1 = rank := by
  rw [nearestRank_eq, Nat.div_one, log2_magnitude, Nat.one_mul, magnitude_eq,
    roundQuotient_of_dvd _ _ (Nat.two_pow_pos _), binade_add_significand]

theorem magnitude_pos {rank : Nat} (h : rank ≠ 0) : 0 < magnitude rank := by
  rw [magnitude_eq]
  refine Nat.mul_pos ?_ (Nat.two_pow_pos _)
  rw [significand_eq, binade_eq]
  omega

/-- The unit is a power of two. The number of places is taken for any number here, or the power
would be multiplied out. -/
theorem unit_eq : unit = 2 ^ places := by
  unfold unit
  generalize places = k
  rfl

theorem magnitude_lt_of_binade_le {rank e : Nat} (h : binade rank ≤ e) :
    magnitude rank < 2 ^ 53 * 2 ^ e :=
  Nat.lt_of_lt_of_le (Nat.mul_lt_mul_of_pos_right (significand_lt rank) (Nat.two_pow_pos _))
    (Nat.mul_le_mul_left _ (Nat.pow_le_pow_right (by decide) h))

/-- The finite magnitudes lie below `2 ^ 1024`, in units of `2 ^ -1074`: a significand has 53
digits, and is shifted by 2045 at most. -/
theorem magnitude_lt {rank : Nat} (h : rank < rankCount) : magnitude rank < 2 ^ 53 * 2 ^ 2045 := by
  have hb : binade rank ≤ 2045 := by
    have hcount : rankCount = 2047 * 2 ^ 52 := rfl
    rw [binade_eq]
    omega
  exact magnitude_lt_of_binade_le hb

theorem ofQuotient_exact (negative : Bool) (rank k : Nat) :
    ofQuotient negative (magnitude rank * 5 ^ k * 2 ^ k) (10 ^ k) = ofRank negative rank := by
  have hparts : (10 : Nat) ^ k = 1 * (5 ^ k * 2 ^ k) := by rw [Nat.one_mul, ← Nat.mul_pow]
  rw [hparts, Nat.mul_assoc, ofQuotient_scale _ _ _ (by positivity), ofQuotient,
    nearestRank_magnitude]

end Double

namespace Decimal

/-! ## Zeros at the end of a decimal -/

theorem size_mul_ten {n : Nat} (h : 0 < n) : size (n * 10) = size n + 1 := by
  have hsplit : Nat.toDigits 10 (n * 10) = Nat.toDigits 10 n ++ ['0'] := by
    rw [Nat.mul_comm]
    exact (Nat.toDigits_append_toDigits (by decide) h (d := 0) (by decide)).symm
  simp [size, hsplit]

theorem ofQuotient_mul_ten (negative : Bool) (n u : Nat) (e : Int) :
    Double.ofQuotient negative (n * 10 * 10 ^ (e - 1).toNat * u) (10 ^ (-(e - 1)).toNat) =
      Double.ofQuotient negative (n * 10 ^ e.toNat * u) (10 ^ (-e).toNat) := by
  by_cases he : 1 ≤ e
  · have h1 : e.toNat = (e - 1).toNat + 1 := by omega
    have h2 : (-(e - 1)).toNat = (-e).toNat := by omega
    have h3 : n * 10 * 10 ^ (e - 1).toNat * u = n * (10 ^ (e - 1).toNat * 10) * u := by ring
    rw [h1, h2, h3, Nat.pow_succ]
  · have h1 : (e - 1).toNat = e.toNat := by omega
    have h2 : (-(e - 1)).toNat = (-e).toNat + 1 := by omega
    have h3 : n * 10 * 10 ^ e.toNat * u = n * 10 ^ e.toNat * u * 10 := by ring
    rw [h1, h2, h3, Nat.pow_succ, Double.ofQuotient_scale _ _ _ (by decide)]

/-- A zero at the end of the digits, made up for by the exponent, does not change what is read. What
is rounded is a quotient, and both its parts become ten times as large, or neither does. -/
theorem toDouble_mul_ten (negative : Bool) (n : Nat) (e : Int) :
    toDouble negative ⟨n * 10, e - 1⟩ = toDouble negative ⟨n, e⟩ := by
  by_cases hn : n = 0
  · simp [toDouble, hn]
  · have hn' : n * 10 ≠ 0 := by omega
    have htop : ((size n + 1 : Nat) : Int) + (e - 1) = (size n : Int) + e := by omega
    have hvalue := ofQuotient_mul_ten negative n Double.unit e
    simp only [toDouble, quotient, size_mul_ten (Nat.pos_of_ne_zero hn), htop, hn, hn', if_false,
      Nat.pow_eq, hvalue]

theorem toDouble_mul_pow (negative : Bool) (n : Nat) (e : Int) (k : Nat) :
    toDouble negative ⟨n * 10 ^ k, e - k⟩ = toDouble negative ⟨n, e⟩ := by
  induction k with
  | zero => simp
  | succ k ih =>
    rw [← ih, Nat.pow_succ, ← Nat.mul_assoc, ← toDouble_mul_ten negative (n * 10 ^ k) (e - k)]
    congr 2
    omega

theorem toDouble_normalize_go (negative : Bool) (fuel n : Nat) (e : Int) :
    toDouble negative (normalize.go fuel n e) = toDouble negative ⟨n, e⟩ := by
  induction fuel generalizing n e with
  | zero => rfl
  | succ fuel ih =>
    rw [normalize.go]
    split
    · rename_i hzero
      have hn : n / 10 * 10 = n := by omega
      rw [ih, ← toDouble_mul_ten, hn]
      congr 2
      omega
    · rfl

@[simp] theorem toDouble_normalize (negative : Bool) (d : Decimal) :
    toDouble negative d.normalize = toDouble negative d := by
  unfold normalize
  split
  · rfl
  · exact toDouble_normalize_go negative _ d.digits d.exponent

theorem toDouble_of_false {d : Decimal} {rank : Fin Double.rankCount}
    (h : toDouble false d = .finite false rank) (negative : Bool) :
    toDouble negative d = .finite negative rank := by
  have hrank : ∀ n, Double.ofRank false n = .finite false rank →
      Double.ofRank negative n = .finite negative rank := by
    intro n hn
    rw [Double.eq_of_ofRank hn, Double.ofRank_of_lt negative rank.isLt]
  unfold toDouble at h ⊢
  dsimp only at h ⊢
  by_cases hzero : d.digits = 0
  · rw [if_pos hzero] at h ⊢
    exact hrank _ h
  rw [if_neg hzero] at h ⊢
  by_cases hhigh : 310 ≤ (size d.digits : Int) + d.exponent
  · rw [if_pos hhigh] at h
    exact absurd h (by simp)
  rw [if_neg hhigh] at h ⊢
  by_cases hlow : (size d.digits : Int) + d.exponent ≤ -324
  · rw [if_pos hlow] at h ⊢
    exact hrank _ h
  · rw [if_neg hlow] at h ⊢
    exact hrank _ h

/-! ## The exact decimal -/

theorem size_le_iff {n k : Nat} (hk : 0 < k) : size n ≤ k ↔ n < 10 ^ k :=
  Nat.length_toDigits_le_iff (by decide) hk

theorem exact_digits (rank : Nat) :
    (exact rank).digits = Double.magnitude rank * 5 ^ Double.places := by
  rw [exact, Nat.pow_eq]

/-- The exact decimal's leading digit is neither so far left nor so far right that reading would
not look at the rest. -/
theorem size_exact {rank : Nat} (hz : rank ≠ 0) (h : rank < Double.rankCount) :
    751 ≤ size (exact rank).digits ∧ size (exact rank).digits ≤ 1383 := by
  rw [exact_digits]
  have hfive : 0 < 5 ^ Double.places := by positivity
  constructor
  · by_contra hlt
    have hle : size (Double.magnitude rank * 5 ^ Double.places) ≤ 750 := by omega
    rw [size_le_iff (by decide)] at hle
    have hpow : 10 ^ 750 ≤ 5 ^ Double.places := by decide +kernel
    have hmul := Nat.le_mul_of_pos_left (5 ^ Double.places) (Double.magnitude_pos hz)
    exact absurd hle (Nat.not_lt.2 (Nat.le_trans hpow hmul))
  · rw [size_le_iff (by decide)]
    have hpow : 2 ^ 53 * 2 ^ 2045 * 5 ^ Double.places ≤ 10 ^ 1383 := by decide +kernel
    exact Nat.lt_of_lt_of_le (Nat.mul_lt_mul_of_pos_right (Double.magnitude_lt h) hfive) hpow

/-- The decimal that the search for few digits ends with is the double's own value. Every double is
a whole number of units, and a power of two is a decimal with as many places. -/
theorem toDouble_exact {rank : Nat} (hz : rank ≠ 0) (h : rank < Double.rankCount) :
    toDouble false (exact rank) = Double.ofRank false rank := by
  obtain ⟨hlow, hhigh⟩ := size_exact hz h
  have hexponent : (exact rank).exponent = -1074 := rfl
  have hdigits : (exact rank).digits ≠ 0 := by
    rw [exact_digits]
    exact Nat.mul_ne_zero (Nat.ne_of_gt (Double.magnitude_pos hz)) (by positivity)
  rw [toDouble, if_neg hdigits, if_neg (by omega), if_neg (by omega)]
  have hquotient : (exact rank).quotient =
      (Double.magnitude rank * 5 ^ Double.places, 10 ^ Double.places) := by
    simp [quotient, exact]
  rw [hquotient, Double.unit_eq, Double.ofQuotient_exact]

/-! ## Few digits -/

/-- Each decimal that is tried is taken only if it reads back, and the last one does. So nothing
needs to be known about the others, nor about how few digits there are. -/
theorem toDouble_shortestFrom {rank : Nat} (hz : rank ≠ 0) (h : rank < Double.rankCount)
    (leading : Int) (fuel count : Nat) :
    toDouble false (shortestFrom rank leading fuel count) = Double.ofRank false rank := by
  induction fuel generalizing count with
  | zero =>
    rw [shortestFrom]
    exact toDouble_exact hz h
  | succ fuel ih =>
    rw [shortestFrom]
    cases hfound : (neighbours (Double.magnitude rank) Double.unit (leading - count)).find?
      (readsBack rank) with
    | none => exact ih (count + 1)
    | some d => simpa [readsBack] using List.find?_some hfound

/-- The shortest decimal of a finite double reads back as that double. Zero has a case of its own,
since its digits are not searched for. -/
theorem toDouble_shortest (negative : Bool) (rank : Fin Double.rankCount) :
    toDouble negative (shortest rank) = .finite negative rank := by
  refine toDouble_of_false ?_ negative
  by_cases hz : rank.val = 0
  · rw [shortest, if_pos hz, toDouble, if_pos rfl, Double.ofRank_of_lt false (by decide)]
    congr 1
    exact Fin.ext hz.symm
  · rw [shortest, if_neg hz, toDouble_normalize, toDouble_shortestFrom hz rank.isLt,
      Double.ofRank_of_lt false rank.isLt]

end Decimal

end Stencil
