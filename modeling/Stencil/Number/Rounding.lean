/-!
# Rounding a quotient to a whole number

Every inexact step of the arithmetic, binary or decimal, is one exact quotient of natural numbers
followed by this rounding. A quotient that lies halfway between two whole numbers goes to the even
one.
-/

set_option autoImplicit false

namespace Stencil

/-- The whole number nearest to `n / d`; of two equally near ones, the even one. Halves are told by
doubling the rest, so that no fraction is ever formed. -/
def roundQuotient (n d : Nat) : Nat :=
  let below := n / d
  let rest := n % d
  if 2 * rest < d then below
  else if d < 2 * rest then below + 1
  else below + below % 2

theorem roundQuotient_of_dvd (k d : Nat) (hd : 0 < d) : roundQuotient (k * d) d = k := by
  simp [roundQuotient, Nat.mul_div_cancel _ hd, hd]

theorem roundQuotient_eq_or (n d : Nat) :
    roundQuotient n d = n / d ∨ roundQuotient n d = n / d + 1 := by
  unfold roundQuotient
  dsimp only
  split
  · exact .inl rfl
  · split
    · exact .inr rfl
    · omega

end Stencil
