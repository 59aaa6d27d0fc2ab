import Stencil.Proofs.Number.Order
import Stencil.Value.Cell

/-!
# Comparing values as doubles

A value is compared by where its double stands in the order of all doubles, so that comparing orders
whatever stands there, from the least to the greatest with ties (`compare_orders`). Whole numbers in
cells are compared as the doubles nearest to them. Where both numbers have one, the comparison never
contradicts their order; but different numbers may compare as equal, which up to `2 ^ 53` they do
not.
-/

set_option autoImplicit false

namespace Stencil

open Double (Fits level)

namespace Value

/-- The value counts as a double that stands at a position in the order of all doubles. Both zeros
have one position, and what is not a number has none. -/
def StandsAt (v : Value) (p : Int) : Prop := ∃ x, v.toDouble = .ok x ∧ x.position = some p

def IsOrdered (v : Value) : Prop := ∃ x, v.toDouble = .ok x ∧ x ≠ .nan

/-- The value can be compared with another one and is not above it. -/
def AtMost (v w : Value) : Prop := ∃ sign ≤ 0, Cell.compare ⟨v⟩ w = .ok sign

variable {v w : Value} {p q n : Int}

theorem IsOrdered.exists_standsAt (h : v.IsOrdered) : ∃ p, v.StandsAt p := by
  obtain ⟨x, hx, hnumber⟩ := h
  cases x with
  | nan => exact absurd rfl hnumber
  | infinite negative => exact ⟨_, _, hx, rfl⟩
  | finite negative rank => exact ⟨_, _, hx, rfl⟩

theorem StandsAt.compare (hv : v.StandsAt p) (hw : w.StandsAt q) :
    Cell.compare ⟨v⟩ w = .ok (p - q).sign := by
  obtain ⟨x, hx, hxposition⟩ := hv
  obtain ⟨y, hy, hyposition⟩ := hw
  rw [Cell.compare, hx, hy]
  show Except.ok (x.compare y) = _
  rw [Double.compare, hxposition, hyposition]

theorem StandsAt.atMost_iff (hv : v.StandsAt p) (hw : w.StandsAt q) : v.AtMost w ↔ p ≤ q := by
  rw [AtMost, hv.compare hw]
  constructor
  · rintro ⟨sign, hsign, heq⟩
    obtain rfl := Except.ok.inj heq
    have := Int.sign_nonpos_iff.1 hsign
    omega
  · intro h
    exact ⟨_, Int.sign_nonpos_iff.2 (by omega), rfl⟩

theorem standsAt_integer (h : Fits n) : (Value.integer n).StandsAt (level n) := by
  obtain ⟨x, hx, hposition⟩ := Double.exists_ofInt? h
  refine ⟨x, ?_, hposition⟩
  rw [toDouble, Number.toDouble, hx]
  rfl

theorem toDouble_integer_of_not_fits (h : ¬ Fits n) :
    (Value.integer n).toDouble = .error .tooLarge := by
  rw [toDouble, Number.toDouble, Double.ofInt?_of_not_fits h]
  rfl

theorem fits_of_toDouble_integer {x : Double} (h : (Value.integer n).toDouble = .ok x) :
    Fits n := by
  by_cases hn : Fits n
  · exact hn
  · exact absurd ((toDouble_integer_of_not_fits hn).symm.trans h) (by simp)

theorem not_fits_of_toDouble_integer {fault : ValueFault}
    (h : (Value.integer n).toDouble = .error fault) : ¬ Fits n ∧ fault = .tooLarge := by
  by_cases hn : Fits n
  · obtain ⟨x, hx, -⟩ := standsAt_integer hn
    exact absurd (hx.symm.trans h) (by simp)
  · rw [toDouble_integer_of_not_fits hn] at h
    exact ⟨hn, (Except.error.inj h).symm⟩

end Value

namespace Cell

variable {a b sign : Int}

theorem compare_integer (ha : Fits a) (hb : Fits b) :
    compare ⟨.integer a⟩ (.integer b) = .ok (level a - level b).sign :=
  (Value.standsAt_integer ha).compare (Value.standsAt_integer hb)

theorem compare_integer_of_not_fits (h : ¬ (Fits a ∧ Fits b)) :
    compare ⟨.integer a⟩ (.integer b) = .error .tooLarge := by
  rw [compare]
  by_cases ha : Fits a
  · have hb : ¬ Fits b := fun hb => h ⟨ha, hb⟩
    obtain ⟨x, hx, -⟩ := Value.standsAt_integer ha
    rw [hx, Value.toDouble_integer_of_not_fits hb]
    rfl
  · rw [Value.toDouble_integer_of_not_fits ha]
    rfl

theorem compare_integer_eq_ok_iff :
    compare ⟨.integer a⟩ (.integer b) = .ok sign ↔
      Fits a ∧ Fits b ∧ sign = (level a - level b).sign := by
  by_cases h : Fits a ∧ Fits b
  · rw [compare_integer h.1 h.2, Except.ok.injEq, eq_comm]
    exact ⟨fun hsign => ⟨h.1, h.2, hsign⟩, fun hsign => hsign.2.2⟩
  · rw [compare_integer_of_not_fits h]
    exact ⟨fun heq => absurd heq (by simp), fun hsign => absurd ⟨hsign.1, hsign.2.1⟩ h⟩

theorem compare_le_of_le (h : a ≤ b) (hc : compare ⟨.integer a⟩ (.integer b) = .ok sign) :
    sign ≤ 0 := by
  obtain ⟨-, -, rfl⟩ := compare_integer_eq_ok_iff.1 hc
  have := Double.level_mono h
  exact Int.sign_nonpos_iff.2 (by omega)

theorem le_compare_of_le (h : b ≤ a) (hc : compare ⟨.integer a⟩ (.integer b) = .ok sign) :
    0 ≤ sign := by
  obtain ⟨-, -, rfl⟩ := compare_integer_eq_ok_iff.1 hc
  have := Double.level_mono h
  exact Int.sign_nonneg_iff.2 (by omega)

theorem compare_of_lt (h : b < a) (ha : a.natAbs ≤ 2 ^ 53) (hb : b.natAbs ≤ 2 ^ 53) :
    compare ⟨.integer a⟩ (.integer b) = .ok 1 := by
  have := Double.level_lt h hb ha
  rw [compare_integer (Double.fits_of_le ha) (Double.fits_of_le hb), Except.ok.injEq]
  exact Int.sign_eq_one_of_pos (by omega)

theorem sign_level (ha : a.natAbs ≤ 2 ^ 53) (hb : b.natAbs ≤ 2 ^ 53) :
    (level a - level b).sign = (a - b).sign := by
  rcases Int.lt_trichotomy a b with h | rfl | h
  · have := Double.level_lt h ha hb
    rw [Int.sign_eq_neg_one_of_neg (by omega), Int.sign_eq_neg_one_of_neg (by omega)]
  · rw [Int.sub_self, Int.sub_self]
  · have := Double.level_lt h hb ha
    rw [Int.sign_eq_one_of_pos (by omega), Int.sign_eq_one_of_pos (by omega)]

/-- Comparing never contradicts the order of whole numbers that have a double, is exact up to
`2 ^ 53`, and turns its sign if the two are swapped. Whatever counts as a double that is a number is
put into an order, in which any two can be compared. -/
theorem compare_orders :
    (∀ {a b : Int} {s t : Bool} {i j : Fin Double.rankCount},
      (Value.integer a).toDouble = .ok (.finite s i) →
      (Value.integer b).toDouble = .ok (.finite t j) →
        ∃ sign, compare ⟨.integer a⟩ (.integer b) = .ok sign ∧
          compare ⟨.integer b⟩ (.integer a) = .ok (-sign) ∧
          (a = b → sign = 0) ∧ (a < b → sign = -1 ∨ sign = 0) ∧ (b < a → sign = 1 ∨ sign = 0) ∧
          (a.natAbs ≤ 2 ^ 53 → b.natAbs ≤ 2 ^ 53 → sign = (a - b).sign)) ∧
    (∀ {u : Value}, u.IsOrdered → u.AtMost u) ∧
    (∀ {u v : Value}, u.IsOrdered → v.IsOrdered → u.AtMost v ∨ v.AtMost u) ∧
    (∀ {u v w : Value}, u.IsOrdered → v.IsOrdered → w.IsOrdered →
      u.AtMost v → v.AtMost w → u.AtMost w) := by
  refine ⟨fun {a b _ _ _ _} ha hb => ?_, fun {u} hu => ?_, fun {u v} hu hv => ?_,
    fun {u v w} hu hv hw huv hvw => ?_⟩
  · have ha := Value.fits_of_toDouble_integer ha
    have hb := Value.fits_of_toDouble_integer hb
    have hc := compare_integer ha hb
    have hsign := Int.sign_trichotomy (level a - level b)
    refine ⟨_, hc, ?_, fun h => ?_, fun h => ?_, fun h => ?_, sign_level⟩
    · rw [compare_integer hb ha, ← Int.sign_neg, Int.neg_sub]
    · rw [h, Int.sub_self, Int.sign_zero]
    · have := compare_le_of_le (Int.le_of_lt h) hc
      omega
    · have := le_compare_of_le (Int.le_of_lt h) hc
      omega
  -- The three laws are those of the positions, which are integers.
  · obtain ⟨p, hp⟩ := hu.exists_standsAt
    exact (hp.atMost_iff hp).2 (Int.le_refl p)
  · obtain ⟨p, hp⟩ := hu.exists_standsAt
    obtain ⟨q, hq⟩ := hv.exists_standsAt
    rw [hp.atMost_iff hq, hq.atMost_iff hp]
    exact Int.le_total p q
  · obtain ⟨p, hp⟩ := hu.exists_standsAt
    obtain ⟨q, hq⟩ := hv.exists_standsAt
    obtain ⟨r, hr⟩ := hw.exists_standsAt
    rw [hp.atMost_iff hq] at huv
    rw [hq.atMost_iff hr] at hvw
    rw [hp.atMost_iff hr]
    exact Int.le_trans huv hvw

/-- Above `2 ^ 53` two numbers can share a double. A text that counts as minus infinity is below all
whole numbers, even below those that an absent value is not above. -/
theorem compare_orders_tie :
    ((Value.integer (2 ^ 53 + 1)).toDouble = .ok (.finite false ⟨1076 * 2 ^ 52, by decide⟩) ∧
      (Value.integer (2 ^ 53)).toDouble = .ok (.finite false ⟨1076 * 2 ^ 52, by decide⟩) ∧
      ∃ sign, compare ⟨.integer (2 ^ 53 + 1)⟩ (.integer (2 ^ 53)) = .ok sign ∧
        compare ⟨.integer (2 ^ 53)⟩ (.integer (2 ^ 53 + 1)) = .ok (-sign) ∧
        (sign = 1 ∨ sign = 0)) ∧
    (Value.text "-1e999").AtMost (.text "-1e999") ∧
    ((Value.text "-1e999").AtMost (.integer 7) ∨ (Value.integer 7).AtMost (.text "-1e999")) ∧
    (Value.text "-1e999").AtMost (.integer 7) := by
  obtain ⟨hintegers, hrefl, htotal, htrans⟩ := compare_orders
  have ha : (Value.integer (2 ^ 53 + 1)).toDouble =
      .ok (.finite false ⟨1076 * 2 ^ 52, by decide⟩) := by decide +kernel
  have hb : (Value.integer (2 ^ 53)).toDouble =
      .ok (.finite false ⟨1076 * 2 ^ 52, by decide⟩) := by decide +kernel
  have hinfinite : (Value.text "-1e999").IsOrdered :=
    ⟨.infinite true, by decide +kernel, by decide⟩
  have habsent : Value.absent.IsOrdered := ⟨Double.zero, rfl, by decide⟩
  have hseven : (Value.integer 7).IsOrdered :=
    ⟨.finite false ⟨1025 * 2 ^ 52 + 3 * 2 ^ 50, by decide⟩, by decide +kernel, by decide⟩
  obtain ⟨sign, hsign, hswap, -, -, habove, -⟩ := hintegers ha hb
  refine ⟨⟨ha, hb, sign, hsign, hswap, habove (by decide)⟩, hrefl hinfinite,
    htotal hinfinite hseven, htrans hinfinite habsent hseven ?_ ?_⟩
  · exact ⟨-1, by decide, by decide +kernel⟩
  · exact ⟨-1, by decide, by decide +kernel⟩

end Cell

end Stencil
