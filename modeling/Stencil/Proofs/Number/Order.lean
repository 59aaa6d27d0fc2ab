import Stencil.Proofs.Number.Exact

/-!
# Rounding keeps the order

A greater quotient is never rounded to a lower rank, though the two may be rounded to the same one.
So whole numbers turned into doubles keep their order, and those between two that have a finite
double have one too. Up to `2 ^ 53` nothing is rounded, and different numbers stay different;
from `2 ^ 1024` on no finite double is near.
-/

set_option autoImplicit false

namespace Stencil

theorem le_roundQuotient (n d : Nat) : n / d ≤ roundQuotient n d := by
  rcases roundQuotient_eq_or n d with h | h <;> omega

theorem roundQuotient_le (n d : Nat) : roundQuotient n d ≤ n / d + 1 := by
  rcases roundQuotient_eq_or n d with h | h <;> omega

theorem roundQuotient_mono {n m : Nat} (d : Nat) (h : n ≤ m) :
    roundQuotient n d ≤ roundQuotient m d := by
  have hdiv : n / d ≤ m / d := Nat.div_le_div_right h
  rcases Nat.eq_or_lt_of_le hdiv with heq | hlt
  · -- Between the same two whole numbers, the remainders decide.
    have hn := Nat.div_add_mod n d
    have hm := Nat.div_add_mod m d
    rw [heq] at hn
    have hmod : n % d ≤ m % d := by omega
    unfold roundQuotient
    dsimp only
    rw [heq]
    split_ifs <;> omega
  · have hn := roundQuotient_le n d
    have hm := le_roundQuotient m d
    omega

namespace Double

/-- A quotient is at most rounded up to the end of its binade. There its rank is the first one of
the next, so that rounding keeps the order across binades too. -/
theorem roundQuotient_le_binade (n d : Nat) :
    roundQuotient n (d * 2 ^ (Nat.log2 (n / d) - 52)) ≤ 2 ^ 53 := by
  have hround := roundQuotient_le n (d * 2 ^ (Nat.log2 (n / d) - 52))
  rw [← Nat.div_div_eq_div_mul] at hround
  have hlt : n / d / 2 ^ (Nat.log2 (n / d) - 52) < 2 ^ 53 := by
    rw [Nat.div_lt_iff_lt_mul (Nat.two_pow_pos _), ← Nat.pow_add]
    exact Nat.lt_of_lt_of_le Nat.lt_log2_self (Nat.pow_le_pow_right (by decide) (by omega))
  omega

theorem binade_le_roundQuotient {n d : Nat} (h : 0 < Nat.log2 (n / d) - 52) :
    2 ^ 52 ≤ roundQuotient n (d * 2 ^ (Nat.log2 (n / d) - 52)) := by
  have hround := le_roundQuotient n (d * 2 ^ (Nat.log2 (n / d) - 52))
  rw [← Nat.div_div_eq_div_mul] at hround
  refine Nat.le_trans ?_ hround
  rw [Nat.le_div_iff_mul_le (Nat.two_pow_pos _), ← Nat.pow_add]
  have hpow : 52 + (Nat.log2 (n / d) - 52) = Nat.log2 (n / d) := by omega
  rw [hpow]
  refine Nat.log2_self_le ?_
  intro hzero
  rw [hzero] at h
  exact absurd h (by decide)

theorem log2_mono {n m : Nat} (h : n ≤ m) : Nat.log2 n ≤ Nat.log2 m := by
  rcases Nat.eq_zero_or_pos n with rfl | hpos
  · exact Nat.zero_le _
  · rw [Nat.le_log2 (by omega)]
    exact Nat.le_trans (Nat.log2_self_le (by omega)) h

theorem nearestRank_mono {n m : Nat} (d : Nat) (h : n ≤ m) :
    nearestRank n d ≤ nearestRank m d := by
  rw [nearestRank_eq, nearestRank_eq]
  have hlog : Nat.log2 (n / d) - 52 ≤ Nat.log2 (m / d) - 52 :=
    Nat.sub_le_sub_right (log2_mono (Nat.div_le_div_right h)) 52
  rcases Nat.eq_or_lt_of_le hlog with heq | hlt
  · rw [← heq]
    exact Nat.add_le_add_left (roundQuotient_mono _ h) _
  · -- The lower one stays within its binade, or comes to the start of the next one.
    have hn := roundQuotient_le_binade n d
    have hm := binade_le_roundQuotient (n := m) (d := d) (by omega)
    omega

/-! ## Whole numbers -/

def wholeRank (n : Nat) : Nat := nearestRank (n * unit) 1

theorem wholeRank_zero : wholeRank 0 = 0 := by
  rw [wholeRank, Nat.zero_mul]
  rfl

theorem wholeRank_mono {n m : Nat} (h : n ≤ m) : wholeRank n ≤ wholeRank m :=
  nearestRank_mono 1 (Nat.mul_le_mul_right unit h)

/-- A whole number whose nearest double is finite. The condition is on the rounded number: some that
lie above the greatest double are rounded down to it, and fit. -/
def Fits (n : Int) : Prop := wholeRank n.natAbs < rankCount

instance (n : Int) : Decidable (Fits n) := inferInstanceAs (Decidable (_ < _))

/-- Where the double nearest to a whole number stands in the order of all doubles. On the line of
these positions rounding is monotone, which is all that comparing whole numbers as doubles needs. -/
def level (n : Int) : Int := if n < 0 then -(wholeRank n.natAbs : Int) else wholeRank n.natAbs

theorem level_mono {a b : Int} (h : a ≤ b) : level a ≤ level b := by
  unfold level
  split
  · split
    · have := wholeRank_mono (n := b.natAbs) (m := a.natAbs) (by omega)
      omega
    · omega
  · split
    · omega
    · have := wholeRank_mono (n := a.natAbs) (m := b.natAbs) (by omega)
      omega

theorem Fits.between {a b c : Int} (ha : Fits a) (hb : Fits b) (hac : a ≤ c) (hcb : c ≤ b) :
    Fits c := by
  by_cases h : c.natAbs ≤ b.natAbs
  · exact Nat.lt_of_le_of_lt (wholeRank_mono h) hb
  · exact Nat.lt_of_le_of_lt (wholeRank_mono (by omega)) ha

theorem ofInt_eq (n : Int) : ofInt n = ofRank (n < 0) (wholeRank n.natAbs) := by
  rw [ofInt, ofQuotient, wholeRank]

theorem exists_ofInt? {n : Int} (h : Fits n) :
    ∃ x, ofInt? n = some x ∧ x.position = some (level n) := by
  rw [ofInt?, ofInt_eq, ofRank_of_lt _ h]
  refine ⟨_, rfl, ?_⟩
  by_cases hn : n < 0 <;> simp [position, level, hn]

theorem ofInt?_of_not_fits {n : Int} (h : ¬ Fits n) : ofInt? n = none := by
  have hrank : ¬ wholeRank n.natAbs < rankCount := h
  rw [ofInt?, ofInt_eq, ofRank, dif_neg hrank]
  rfl

/-! ## Numbers that are too large -/

theorem magnitude_rankCount : magnitude rankCount = 2 ^ 1024 * unit := by decide +kernel

theorem rankCount_le_wholeRank {n : Nat} (h : 2 ^ 1024 ≤ n) : rankCount ≤ wholeRank n := by
  have hcount : wholeRank (2 ^ 1024) = rankCount := by
    rw [wholeRank, ← magnitude_rankCount, nearestRank_magnitude]
  rw [← hcount]
  exact wholeRank_mono h

theorem natAbs_lt_of_fits {n : Int} (h : Fits n) : n.natAbs < 2 ^ 1024 := by
  by_contra hle
  exact absurd h (Nat.not_lt.2 (rankCount_le_wholeRank (Nat.not_lt.1 hle)))

/-! ## Numbers that are not rounded -/

/-- Below `2 ^ 53` a number is a significand, shifted to its 53 digits. So it is a magnitude, and
rounding leaves it as it is. -/
theorem exists_magnitude {n : Nat} (h : n < 2 ^ 53) : ∃ rank, magnitude rank = n * unit := by
  rcases Nat.eq_zero_or_pos n with rfl | hpos
  · exact ⟨0, by rw [Nat.zero_mul]; rfl⟩
  have hlog : Nat.log2 n ≤ 52 := by
    have := (Nat.log2_lt (Nat.ne_of_gt hpos)).2 h
    omega
  have hshift : 2 ^ 52 ≤ n * 2 ^ (52 - Nat.log2 n) := by
    have hsplit : 2 ^ 52 = 2 ^ Nat.log2 n * 2 ^ (52 - Nat.log2 n) := by
      rw [← Nat.pow_add]
      congr 1
      omega
    rw [hsplit]
    exact Nat.mul_le_mul_right _ (Nat.log2_self_le (Nat.ne_of_gt hpos))
  have hsmall : n * 2 ^ (52 - Nat.log2 n) < 2 ^ 53 := by
    have hsplit : 2 ^ 53 = 2 ^ (Nat.log2 n + 1) * 2 ^ (52 - Nat.log2 n) := by
      rw [← Nat.pow_add]
      congr 1
      omega
    rw [hsplit]
    exact Nat.mul_lt_mul_of_pos_right Nat.lt_log2_self (Nat.two_pow_pos _)
  -- The shift to 53 digits is made up for by the binade that the rank is put in.
  refine ⟨(1022 + Nat.log2 n) * 2 ^ 52 + n * 2 ^ (52 - Nat.log2 n), ?_⟩
  have hbinade : binade ((1022 + Nat.log2 n) * 2 ^ 52 + n * 2 ^ (52 - Nat.log2 n)) =
      1022 + Nat.log2 n := by
    rw [binade_eq]
    omega
  rw [magnitude_eq, significand_eq, hbinade, Nat.add_sub_cancel_left, Nat.mul_assoc, ← Nat.pow_add]
  have hplaces : 52 - Nat.log2 n + (1022 + Nat.log2 n) = places := by
    rw [places]
    omega
  rw [hplaces, unit_eq]

theorem magnitude_wholeRank {n : Nat} (h : n ≤ 2 ^ 53) : magnitude (wholeRank n) = n * unit := by
  rcases Nat.eq_or_lt_of_le h with rfl | hlt
  · decide +kernel
  · obtain ⟨rank, hrank⟩ := exists_magnitude hlt
    rw [wholeRank, ← hrank, nearestRank_magnitude]

theorem unit_pos : 0 < unit := by decide +kernel

theorem wholeRank_lt {n m : Nat} (h : n < m) (hm : m ≤ 2 ^ 53) : wholeRank n < wholeRank m := by
  refine Nat.lt_of_le_of_ne (wholeRank_mono (Nat.le_of_lt h)) fun heq => ?_
  have hmagnitude : magnitude (wholeRank n) = magnitude (wholeRank m) := by rw [heq]
  rw [magnitude_wholeRank (by omega), magnitude_wholeRank hm] at hmagnitude
  have := Nat.eq_of_mul_eq_mul_right unit_pos hmagnitude
  omega

/-- Different numbers stay different up to `2 ^ 53` on both sides of zero. At that bound itself
nothing is rounded yet, and the next number is the first one to be. -/
theorem level_lt {a b : Int} (h : a < b) (ha : a.natAbs ≤ 2 ^ 53) (hb : b.natAbs ≤ 2 ^ 53) :
    level a < level b := by
  unfold level
  split
  · split
    · have := wholeRank_lt (n := b.natAbs) (m := a.natAbs) (by omega) ha
      omega
    · have := wholeRank_lt (n := 0) (m := a.natAbs) (by omega) ha
      omega
  · split
    · omega
    · have := wholeRank_lt (n := a.natAbs) (m := b.natAbs) (by omega) hb
      omega

theorem fits_of_le {n : Int} (h : n.natAbs ≤ 2 ^ 53) : Fits n := by
  have hmono := wholeRank_mono h
  have hlt : wholeRank (2 ^ 53) < rankCount := by decide +kernel
  exact Nat.lt_of_le_of_lt hmono hlt

end Double

end Stencil
