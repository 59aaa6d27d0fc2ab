import Mathlib.Algebra.Order.Round
import Mathlib.Data.Rat.Floor
import Mathlib.Tactic.FieldSimp
import Mathlib.Tactic.Linarith
import Mathlib.Tactic.Ring
import Stencil.Number.Rounding

/-!
# Nearest whole numbers

Rounding a quotient gives the whole number nearest to it, and of two equally near ones the even one
(`isNearest_roundQuotient`). No other whole number is that (`IsNearest.unique`).
-/

set_option autoImplicit false

namespace Stencil

/-- No whole number is nearer to `q`, and if another one is as near, this one is even. There is just
one such number, and this says which without telling how it is computed. -/
structure IsNearest (q : ℚ) (c : ℤ) : Prop where
  le : ∀ k : ℤ, |q - c| ≤ |q - k|
  even : ∀ k : ℤ, k ≠ c → |q - c| = |q - k| → Even c

namespace IsNearest

variable {q : ℚ} {c c' : ℤ}

theorem abs_le_half (h : IsNearest q c) : |q - c| ≤ 1 / 2 :=
  (h.le (round q)).trans (abs_sub_round q)

theorem abs_sub_le_add (q : ℚ) (c c' : ℤ) : ((|c - c'| : ℤ) : ℚ) ≤ |q - c| + |q - c'| := by
  have htriangle := abs_sub_le (c : ℚ) q c'
  rw [abs_sub_comm (c : ℚ) q] at htriangle
  exact_mod_cast htriangle

theorem one_le_add_of_ne (q : ℚ) (h : c ≠ c') : 1 ≤ |q - c| + |q - c'| := by
  have hapart : (1 : ℚ) ≤ (|c - c'| : ℤ) := by exact_mod_cast Int.one_le_abs (sub_ne_zero.2 h)
  exact hapart.trans (abs_sub_le_add q c c')

theorem of_abs_le_half (h : |q - c| ≤ 1 / 2) (heven : |q - c| = 1 / 2 → Even c) :
    IsNearest q c := by
  refine ⟨fun k => ?_, fun k hk htie => heven ?_⟩
  · by_cases hk : c = k
    · rw [hk]
    · have hone := one_le_add_of_ne q hk
      linarith
  · have hone := one_le_add_of_ne q (Ne.symm hk)
    linarith

theorem unique (h : IsNearest q c) (h' : IsNearest q c') : c = c' := by
  by_contra hne
  have hsame : |q - c| = |q - c'| := le_antisymm (h.le c') (h'.le c)
  -- Both are even, so that they are two apart. But each is within a half of `q`.
  obtain ⟨a, rfl⟩ := h.even c' (Ne.symm hne) hsame
  obtain ⟨b, rfl⟩ := h'.even _ hne hsame.symm
  have hapart : (2 : ℤ) ≤ |a + a - (b + b)| := by
    rcases abs_cases (a + a - (b + b)) with habs | habs <;> omega
  have hapart' : (2 : ℚ) ≤ (|a + a - (b + b)| : ℤ) := by exact_mod_cast hapart
  have hway := abs_sub_le_add q (a + a) (b + b)
  have hhalf := h.abs_le_half
  have hhalf' := h'.abs_le_half
  linarith

theorem neg (h : IsNearest q c) : IsNearest (-q) (-c) := by
  have hflip : ∀ k : ℤ, |-q - k| = |q - (-k : ℤ)| := by
    intro k
    rw [← abs_neg]
    congr 1
    push_cast
    ring
  refine ⟨fun k => ?_, fun k hk htie => ?_⟩
  · rw [hflip, hflip, neg_neg]
    exact h.le (-k)
  · rw [hflip, hflip, neg_neg] at htie
    exact (h.even (-k) (fun heq => hk (by rw [← heq, neg_neg])) htie).neg

theorem below {t : ℚ} (b : ℤ) (hzero : 0 ≤ t) (ht : t ≤ 1 / 2) (heven : t = 1 / 2 → Even b) :
    IsNearest (b + t) b := by
  have hdistance : |b + t - b| = t := by rw [add_sub_cancel_left, abs_of_nonneg hzero]
  refine .of_abs_le_half ?_ ?_
  · rwa [hdistance]
  · rwa [hdistance]

theorem above {t : ℚ} (b : ℤ) (hone : t ≤ 1) (ht : 1 / 2 ≤ t) (heven : t = 1 / 2 → Even (b + 1)) :
    IsNearest (b + t) (b + 1) := by
  have hdistance : |b + t - (b + 1 : ℤ)| = 1 - t := by
    rw [abs_sub_comm, Int.cast_add, Int.cast_one, add_sub_add_left_eq_sub,
      abs_of_nonneg (sub_nonneg.2 hone)]
  refine .of_abs_le_half ?_ ?_
  · rw [hdistance]
    linarith
  · rw [hdistance]
    exact fun htie => heven (by linarith)

end IsNearest

/-- A quotient of natural numbers is rounded to the nearest whole number, a half to the even one.
What decides is twice the remainder, and the parity of the quotient where that leaves it open. -/
theorem isNearest_roundQuotient (n : ℕ) {d : ℕ} (hd : 0 < d) :
    IsNearest ((n : ℚ) / d) (roundQuotient n d : ℕ) := by
  have hpos : (0 : ℚ) < d := by exact_mod_cast hd
  have hsplit : ((n % d : ℕ) : ℚ) + d * (n / d : ℕ) = n := by exact_mod_cast Nat.mod_add_div n d
  have hrest : n % d < d := Nat.mod_lt n hd
  have hvalue : (n : ℚ) / d = ((n / d : ℕ) : ℤ) + ((n % d : ℕ) : ℚ) / d := by
    rw [← hsplit, Int.cast_natCast]
    field_simp
    ring
  have hzero : (0 : ℚ) ≤ ((n % d : ℕ) : ℚ) / d := by positivity
  have hone : ((n % d : ℕ) : ℚ) / d ≤ 1 := by
    rw [div_le_one hpos]
    exact_mod_cast hrest.le
  have hhalf : ∀ k : ℕ, (k : ℚ) / d < 1 / 2 ↔ 2 * k < d := by
    intro k
    rw [div_lt_div_iff₀ hpos two_pos, one_mul, mul_comm]
    exact_mod_cast Iff.rfl
  have hhalf' : ∀ k : ℕ, 1 / 2 < (k : ℚ) / d ↔ d < 2 * k := by
    intro k
    rw [div_lt_div_iff₀ two_pos hpos, one_mul, mul_comm (k : ℚ)]
    exact_mod_cast Iff.rfl
  rw [hvalue, roundQuotient]
  split
  · rename_i hlow
    have ht := (hhalf _).2 hlow
    exact .below _ hzero ht.le fun htie => absurd htie ht.ne
  rename_i hlow
  split
  · rename_i hhigh
    have ht := (hhalf' _).2 hhigh
    exact .above _ hone ht.le fun htie => absurd htie ht.ne'
  · -- Half way between two numbers, the even one is taken.
    rename_i hhigh
    rw [← hhalf, not_lt] at hlow
    rw [← hhalf', not_lt] at hhigh
    rcases Nat.mod_two_eq_zero_or_one (n / d) with heven | hodd
    · rw [heven]
      exact .below _ hzero hhigh fun _ => (Int.even_coe_nat _).2 (Nat.even_iff.2 heven)
    · rw [hodd]
      refine .above _ hone hlow fun _ => ?_
      exact ((Int.odd_coe_nat _).2 (Nat.odd_iff.2 hodd)).add_one

end Stencil
