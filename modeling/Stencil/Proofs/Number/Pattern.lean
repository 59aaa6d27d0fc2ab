import Mathlib.Data.List.DropRight
import Mathlib.Order.Bounds.Basic
import Stencil.Number.Pattern
import Stencil.Proofs.Number.Nearest
import Stencil.Proofs.Number.Order
import Stencil.Proofs.Number.ReadBack

/-!
# Numbers written by a pattern

A pattern is read as its grammar says (`ofChars?_eq_some_iff`), and a number is written by it as the
nearest decimal of so many places, in no more places than that decimal and the pattern need
(`formatDecimal_rounds`). Nearness is that of the exact values, not of the digits that the number
is usually written with.
-/

set_option autoImplicit false

namespace Stencil

/-! ## Patterns -/

/-- Places of a pattern, with commas among them. -/
def IsPlaces (cs : List Char) : Prop := ∀ c ∈ cs, c = '0' ∨ c = '#' ∨ c = ','

instance : DecidablePred IsPlaces :=
  List.decidableBAll fun c => c = '0' ∨ c = '#' ∨ c = ','

/-- A supported pattern, and what stands behind its point. A semicolon ends the pattern, whatever
follows it. -/
inductive PatternForm : List Char → List Char → Prop
  | whole {front rest : List Char} (hf : IsPlaces front) (hne : front ≠ [])
      (hr : rest.head?.all (· == ';')) : PatternForm (front ++ rest) []
  | pointed {front fraction rest : List Char} (hf : IsPlaces front) (hb : IsPlaces fraction)
      (hr : rest.head?.all (· == ';')) : PatternForm ((front ++ '.' :: fraction) ++ rest) fraction

def IsPatternText (cs : List Char) : Prop := ∀ c ∈ cs, c = '0' ∨ c = '#' ∨ c = '.' ∨ c = ','

theorem isPlaces_iff {cs : List Char} : IsPlaces cs ↔ IsPatternText cs ∧ '.' ∉ cs := by
  constructor
  · intro h
    refine ⟨fun c hmem => ?_, fun hmem => absurd (h _ hmem) (by decide)⟩
    rcases h c hmem with rfl | rfl | rfl <;> simp
  · rintro ⟨h, hpoint⟩ c hmem
    rcases h c hmem with hc | hc | hc | hc
    · exact .inl hc
    · exact .inr (.inl hc)
    · exact absurd (hc ▸ hmem) hpoint
    · exact .inr (.inr hc)

theorem IsPlaces.ne_point {cs : List Char} (h : IsPlaces cs) : ∀ c ∈ cs, (c != '.') = true := by
  intro c hmem
  rw [bne_iff_ne]
  rintro rfl
  exact (isPlaces_iff.1 h).2 hmem

theorem IsPatternText.pointed {front back : List Char} (hf : IsPlaces front) (hb : IsPlaces back) :
    IsPatternText (front ++ '.' :: back) := by
  intro c hmem
  rw [List.mem_append, List.mem_cons] at hmem
  rcases hmem with hmem | rfl | hmem
  · exact (isPlaces_iff.1 hf).1 c hmem
  · simp
  · exact (isPlaces_iff.1 hb).1 c hmem

namespace DecimalPattern

theorem isSupported_iff {cs : List Char} :
    isSupported cs = true ↔ cs ≠ [] ∧ IsPatternText cs ∧ cs.count '.' ≤ 1 := by
  simp [isSupported, IsPatternText, and_assoc, or_assoc]

theorem positivePart_append {front rest : List Char} (hf : IsPatternText front)
    (hr : rest.head?.all (· == ';')) : positivePart (front ++ rest) = front := by
  refine takeWhile_span (fun c hmem => ?_) ?_
  · rcases hf c hmem with rfl | rfl | rfl | rfl <;> rfl
  · cases rest with
    | nil => rfl
    | cons c rest => simpa using hr

theorem isSupported_of_form {cs fraction : List Char} (h : PatternForm cs fraction) :
    isSupported (positivePart cs) = true ∧
      ((positivePart cs).dropWhile (· != '.')).drop 1 = fraction := by
  cases h with
  | whole hf hne hr =>
    obtain ⟨htext, hpoint⟩ := isPlaces_iff.1 hf
    rw [positivePart_append htext hr, List.dropWhile_eq_nil_iff.2 hf.ne_point]
    exact ⟨isSupported_iff.2 ⟨hne, htext, by rw [List.count_eq_zero.2 hpoint]; decide⟩, rfl⟩
  | pointed hf hb hr =>
    rename_i front rest
    have htext := IsPatternText.pointed hf hb
    have hcount : (front ++ '.' :: fraction).count '.' = 1 := by
      rw [List.count_append, List.count_cons_self, List.count_eq_zero.2 (isPlaces_iff.1 hf).2,
        List.count_eq_zero.2 (isPlaces_iff.1 hb).2]
    rw [positivePart_append htext hr, dropWhile_span hf.ne_point rfl]
    exact ⟨isSupported_iff.2 ⟨by simp, htext, hcount.le⟩, rfl⟩

theorem ofChars?_of_form {cs fraction : List Char} (h : PatternForm cs fraction) :
    ofChars? cs = some ⟨fraction.length, fraction.count '0'⟩ := by
  obtain ⟨hsupported, hfraction⟩ := isSupported_of_form h
  unfold ofChars?
  dsimp only
  rw [if_pos hsupported, hfraction]

theorem form_of_isPatternText {positive rest : List Char} (hne : positive ≠ [])
    (htext : IsPatternText positive) (hcount : positive.count '.' ≤ 1)
    (hr : rest.head?.all (· == ';')) :
    PatternForm (positive ++ rest) ((positive.dropWhile (· != '.')).drop 1) := by
  have hsplit := List.takeWhile_append_dropWhile (p := (· != '.')) (l := positive)
  have hfront : '.' ∉ positive.takeWhile (· != '.') := fun hmem =>
    absurd (List.mem_takeWhile_imp hmem) (by simp)
  have hhead := List.head?_dropWhile_not (· != '.') positive
  generalize positive.takeWhile (· != '.') = front at *
  generalize positive.dropWhile (· != '.') = back at *
  subst hsplit
  have hplaces : IsPlaces front :=
    isPlaces_iff.2 ⟨fun c hmem => htext c (List.mem_append_left _ hmem), hfront⟩
  cases back with
  | nil =>
    rw [List.append_nil] at hne ⊢
    exact .whole hplaces hne hr
  | cons c fraction =>
    obtain rfl : c = '.' := by simpa using hhead
    rw [List.count_append, List.count_cons_self] at hcount
    have hfraction : '.' ∉ fraction := List.count_eq_zero.1 (by omega)
    refine .pointed hplaces (isPlaces_iff.2 ⟨fun c hmem => htext c ?_, hfraction⟩) hr
    exact List.mem_append_right _ (List.mem_cons_of_mem _ hmem)

theorem form_of_isSupported {cs : List Char} (h : isSupported (positivePart cs) = true) :
    PatternForm cs (((positivePart cs).dropWhile (· != '.')).drop 1) := by
  obtain ⟨hne, htext, hcount⟩ := isSupported_iff.1 h
  have hrest : (cs.dropWhile (· != ';')).head?.all (· == ';') := by
    have hhead := List.head?_dropWhile_not (· != ';') cs
    cases hdrop : cs.dropWhile (· != ';') with
    | nil => rfl
    | cons c rest =>
      rw [hdrop] at hhead
      simpa using hhead
  have hform := form_of_isPatternText hne htext hcount hrest
  rwa [positivePart, List.takeWhile_append_dropWhile] at hform

/-- The patterns that are read are those of the grammar, and of each of them only two numbers are
kept: how many places there are, and how many of these are required. -/
theorem ofChars?_eq_some_iff {cs : List Char} {p : DecimalPattern} :
    ofChars? cs = some p ↔
      ∃ fraction, PatternForm cs fraction ∧ p = ⟨fraction.length, fraction.count '0'⟩ := by
  constructor
  · intro h
    unfold ofChars? at h
    dsimp only at h
    split at h
    · rename_i hsupported
      exact ⟨_, form_of_isSupported hsupported, (Option.some.inj h).symm⟩
    · exact absurd h (by simp)
  · rintro ⟨fraction, hform, rfl⟩
    exact ofChars?_of_form hform

/-! ## The digits behind the point -/

theorem exists_eq_dropZeros (cs : List Char) :
    ∃ j, cs = dropZeros cs ++ DoubleLayout.zeros j := by
  obtain ⟨j, hj⟩ : ∃ j, cs.reverse.takeWhile (· == '0') = List.replicate j '0' :=
    ⟨_, List.eq_replicate_of_mem fun c hmem => by simpa using List.mem_takeWhile_imp hmem⟩
  refine ⟨j, ?_⟩
  rw [dropZeros, DoubleLayout.zeros, ← List.reverse_replicate, ← hj, ← List.reverse_append,
    List.takeWhile_append_dropWhile, List.reverse_reverse]

theorem getLast?_dropZeros (cs : List Char) : (dropZeros cs).getLast? ≠ some '0' := by
  rw [dropZeros, List.getLast?_reverse]
  have hhead := List.head?_dropWhile_not (· == '0') cs.reverse
  intro h
  rw [h] at hhead
  exact absurd hhead (by simp)

theorem exists_eq_fractionDigits (p : DecimalPattern) {digits : List Char}
    (hrequired : p.required ≤ p.places) (hlen : digits.length = p.places) :
    ∃ j, digits = p.fractionDigits digits ++ DoubleLayout.zeros j ∧
      p.required ≤ (p.fractionDigits digits).length ∧
      (p.required < (p.fractionDigits digits).length →
        (p.fractionDigits digits).getLast? ≠ some '0') := by
  unfold fractionDigits
  split
  · obtain ⟨j, hj⟩ := exists_eq_dropZeros digits
    have hlast := getLast?_dropZeros digits
    dsimp only
    generalize dropZeros digits = kept at *
    subst hj
    rw [List.length_append, DoubleLayout.length_zeros] at hlen
    refine ⟨j - (p.required - kept.length), ?_, ?_, fun hlt => ?_⟩
    · rw [List.append_assoc, DoubleLayout.zeros_append_zeros]
      congr 2
      omega
    · rw [List.length_append, DoubleLayout.length_zeros]
      omega
    · rw [List.length_append, DoubleLayout.length_zeros] at hlt
      have hpad : p.required - kept.length = 0 := by omega
      rwa [hpad, DoubleLayout.zeros, List.replicate_zero, List.append_nil]
  · refine ⟨0, by simp [DoubleLayout.zeros], ?_, ?_⟩ <;> omega

theorem isDigits_placeDigits (places n : ℕ) : IsDigits (placeDigits places n) := by
  unfold placeDigits
  split
  · exact .nil
  · exact (IsDigits.zeros _).append (.toDigits n)

theorem length_placeDigits {places n : ℕ} (h : n < 10 ^ places) :
    (placeDigits places n).length = places := by
  unfold placeDigits
  split
  · rename_i hzero
    rw [hzero, List.length_nil]
  · rename_i hne
    have hlen := (Nat.length_toDigits_le_iff (by decide) (by omega)).2 h
    rw [List.length_append, DoubleLayout.length_zeros]
    omega

theorem ofDigitChars_placeDigits {places n : ℕ} (h : n < 10 ^ places) :
    Nat.ofDigitChars 10 (placeDigits places n) 0 = n := by
  unfold placeDigits
  split
  · rename_i hzero
    rw [hzero, Nat.pow_zero, Nat.lt_one_iff] at h
    rw [h, Nat.ofDigitChars_nil]
  · rw [Nat.ofDigitChars_append, DoubleLayout.zeros, Nat.ofDigitChars_replicate_zero, Nat.mul_zero,
      Nat.ofDigitChars_ten_toDigits]

end DecimalPattern

/-! ## Plain decimals -/

/-- A number with so many decimal places, or fewer. Trailing zeros make no difference to it, and
this is what lets places that are not required be left out. -/
def FitsPlaces (k : ℕ) (v : ℚ) : Prop := ∃ a : ℤ, v = a / 10 ^ k

theorem FitsPlaces.neg {k : ℕ} {v : ℚ} (h : FitsPlaces k v) : FitsPlaces k (-v) := by
  obtain ⟨a, rfl⟩ := h
  exact ⟨-a, by push_cast; ring⟩

theorem fitsPlaces_neg {k : ℕ} {v : ℚ} : FitsPlaces k (-v) ↔ FitsPlaces k v :=
  ⟨fun h => by simpa using h.neg, .neg⟩

theorem fitsPlaces_abs {k : ℕ} {v : ℚ} : FitsPlaces k |v| ↔ FitsPlaces k v := by
  rcases abs_choice v with h | h
  · rw [h]
  · rw [h, fitsPlaces_neg]

/-- The plain text of a number that is not negative, with so many digits behind the point. Without
such digits there is no point. -/
inductive PlainForm : List Char → ℕ → ℚ → Prop
  | whole (n : ℕ) : PlainForm (Nat.toDigits 10 n) 0 n
  | pointed {fraction : List Char} (n : ℕ) (hd : IsDigits fraction) (hne : fraction ≠ []) :
      PlainForm (Nat.toDigits 10 n ++ '.' :: fraction) fraction.length
        (n + Nat.ofDigitChars 10 fraction 0 / 10 ^ fraction.length)

theorem PlainForm.of_isDigits {fraction : List Char} (n : ℕ) (hd : IsDigits fraction) :
    PlainForm (Nat.toDigits 10 n ++ (if fraction.isEmpty then [] else '.' :: fraction))
      fraction.length (n + Nat.ofDigitChars 10 fraction 0 / 10 ^ fraction.length) := by
  cases fraction with
  | nil => simpa using PlainForm.whole n
  | cons c fraction => exact .pointed n hd (by simp)

theorem PlainForm.fitsPlaces {text : List Char} {k : ℕ} {v : ℚ} (h : PlainForm text k v) :
    FitsPlaces k v := by
  cases h with
  | whole n => exact ⟨n, by simp⟩
  | pointed n hd hne =>
    rename_i fraction
    refine ⟨n * 10 ^ fraction.length + Nat.ofDigitChars 10 fraction 0, ?_⟩
    push_cast
    field_simp

theorem div_pow_eq_add {c k j n m : ℕ} (h : 10 ^ (k + j) * n + m * 10 ^ j = c) :
    (c : ℚ) / 10 ^ (k + j) = n + m / 10 ^ k := by
  rw [← h]
  push_cast
  rw [pow_add]
  field_simp

theorem eq_zero_of_isDigit {c : Char} (h : c.isDigit = true)
    (hten : 10 ∣ c.toNat - '0'.toNat) : c = '0' := by
  rw [Char.isDigit_iff_toNat] at h
  have hzero : '0'.toNat = 48 := rfl
  have hnine : '9'.toNat = 57 := rfl
  refine Char.toNat_inj.1 ?_
  omega

/-- A number that needs no more than `k` places can have a digit behind them, but it is a multiple
of ten. -/
theorem ten_dvd_of_fitsPlaces {k r n m digit : ℕ}
    (h : FitsPlaces k (n + (10 * m + digit : ℕ) / 10 ^ (k + r + 1))) : 10 ∣ digit := by
  obtain ⟨a, ha⟩ := h
  have hsum : (n : ℚ) * (10 ^ k * 10 ^ r * 10) + (10 * m + digit) = a * 10 ^ r * 10 := by
    rw [pow_succ, pow_add] at ha
    push_cast at ha
    field_simp at ha
    linarith
  have hwhole : (n : ℤ) * (10 ^ k * 10 ^ r * 10) + (10 * m + digit) = a * 10 ^ r * 10 := by
    exact_mod_cast hsum
  have hten : (10 : ℤ) ∣ digit := ⟨a * 10 ^ r - n * (10 ^ k * 10 ^ r) - m, by linarith⟩
  exact_mod_cast hten

theorem length_le_of_fitsPlaces {fraction : List Char} {k n : ℕ} (hd : IsDigits fraction)
    (hlast : fraction.getLast? ≠ some '0')
    (h : FitsPlaces k (n + Nat.ofDigitChars 10 fraction 0 / 10 ^ fraction.length)) :
    fraction.length ≤ k := by
  rcases List.eq_nil_or_concat fraction with rfl | ⟨front, c, rfl⟩
  · exact Nat.zero_le k
  rw [List.concat_eq_append] at *
  by_contra hk
  rw [List.length_append, List.length_singleton, not_le, Nat.lt_succ_iff] at hk
  obtain ⟨r, hr⟩ := Nat.exists_eq_add_of_le hk
  rw [Nat.ofDigitChars_append, Nat.ofDigitChars_cons, Nat.ofDigitChars_nil, List.length_append,
    List.length_singleton, hr] at h
  have hzero := eq_zero_of_isDigit (hd c (by simp)) (ten_dvd_of_fitsPlaces h)
  exact hlast (by simp [hzero])

namespace DecimalPattern

/-- A number of steps is written as a plain decimal, with the least number of places that the
decimal and the pattern allow. -/
theorem plainForm_layOut (p : DecimalPattern) (hrange : p.places ≤ DecimalArithmetic.maxPlaces)
    (hrequired : p.required ≤ p.places) (c : ℕ) :
    ∃ k, IsLeast {k | p.required ≤ k ∧ FitsPlaces k ((c : ℚ) / 10 ^ p.places)} k ∧
      k ≤ p.places ∧ PlainForm (p.layOut c) k ((c : ℚ) / 10 ^ p.places) := by
  have hlast : p.lastPlace = p.places := min_eq_left hrange
  have hlt : c % 10 ^ p.places < 10 ^ p.places := Nat.mod_lt _ (by positivity)
  have hdigits := isDigits_placeDigits p.places (c % 10 ^ p.places)
  have hlen := length_placeDigits hlt
  have hvalue := ofDigitChars_placeDigits hlt
  rw [layOut, hlast]
  dsimp only [Nat.pow_eq]
  generalize placeDigits p.places (c % 10 ^ p.places) = digits at *
  obtain ⟨j, hj, hmin, hzero⟩ := p.exists_eq_fractionDigits hrequired hlen
  generalize p.fractionDigits digits = fraction at *
  subst hj
  have hfraction : IsDigits fraction := fun c hmem => hdigits c (List.mem_append_left _ hmem)
  have hplaces : p.places = fraction.length + j := by
    rw [← hlen, List.length_append, DoubleLayout.length_zeros]
  have hrest : c % 10 ^ p.places = Nat.ofDigitChars 10 fraction 0 * 10 ^ j := by
    rw [← hvalue, DoubleLayout.ofDigitChars_append_zeros]
  have hsum := Nat.div_add_mod c (10 ^ p.places)
  rw [hrest, hplaces] at hsum
  have hform := PlainForm.of_isDigits (c / 10 ^ (fraction.length + j)) hfraction
  rw [hplaces, div_pow_eq_add hsum]
  refine ⟨fraction.length, ⟨⟨hmin, hform.fitsPlaces⟩, fun k hk => ?_⟩, by omega, hform⟩
  by_cases hshort : p.required < fraction.length
  · exact length_le_of_fitsPlaces hfraction (hzero hshort) hk.2
  · exact (not_lt.1 hshort).trans hk.1

end DecimalPattern

/-! ## Rounding to places -/

/-- What a finite double stands for, as a fraction and not as its shortest decimal: rounding to
places starts from the exact value. -/
def Double.exactValue (negative : Bool) (rank : ℕ) : ℚ := units negative rank / unit

theorem Double.exactValue_true (rank : ℕ) : exactValue true rank = -exactValue false rank := by
  have hunits : units true rank = -units false rank := by
    rw [units, units, if_pos rfl, if_neg Bool.false_ne_true]
  rw [exactValue, exactValue, hunits, Int.cast_neg, neg_div]

/-- The number with so many places that is nearest to `v`. Of two equally near ones it is the one
that counts an even number of steps at the last place. -/
def IsRounded (places : ℕ) (v d : ℚ) : Prop :=
  ∃ c : ℤ, d = c / 10 ^ places ∧ IsNearest (v * 10 ^ places) c

theorem IsRounded.unique {places : ℕ} {v d d' : ℚ} (h : IsRounded places v d)
    (h' : IsRounded places v d') : d = d' := by
  obtain ⟨c, rfl, hc⟩ := h
  obtain ⟨c', rfl, hc'⟩ := h'
  rw [hc.unique hc']

theorem IsRounded.neg {places : ℕ} {v d : ℚ} (h : IsRounded places v d) :
    IsRounded places (-v) (-d) := by
  obtain ⟨c, rfl, hc⟩ := h
  refine ⟨-c, by push_cast; ring, ?_⟩
  rw [neg_mul]
  exact hc.neg

namespace DecimalPattern

variable (p : DecimalPattern) (hrange : p.places ≤ DecimalArithmetic.maxPlaces)
include hrange

theorem isRounded_coefficient (rank : ℕ) :
    IsRounded p.places (Double.exactValue false rank) (p.coefficient rank / 10 ^ p.places) := by
  have hlast : p.lastPlace = p.places := min_eq_left hrange
  have hnearest := isNearest_roundQuotient (Double.magnitude rank * 10 ^ p.places) Double.unit_pos
  refine ⟨p.coefficient rank, by push_cast; rfl, ?_⟩
  rw [coefficient, hlast, Double.exactValue, div_mul_eq_mul_div]
  push_cast at hnearest
  exact hnearest

theorem abs_eq_coefficient {negative : Bool} {rank : ℕ} {d : ℚ}
    (h : IsRounded p.places (Double.exactValue negative rank) d) :
    |d| = p.coefficient rank / 10 ^ p.places := by
  have hpositive := p.isRounded_coefficient hrange rank
  have habs : |(p.coefficient rank : ℚ) / 10 ^ p.places| = p.coefficient rank / 10 ^ p.places :=
    abs_of_nonneg (div_nonneg (Nat.cast_nonneg _) (by positivity))
  cases negative with
  | false => rw [h.unique hpositive, habs]
  | true =>
    rw [Double.exactValue_true] at h
    rw [h.unique hpositive.neg, abs_neg, habs]

theorem write_of_isRounded (hrequired : p.required ≤ p.places) {negative : Bool} {rank : ℕ} {d : ℚ}
    (h : IsRounded p.places (Double.exactValue negative rank) d) :
    (|d| * 10 ^ p.places < 10 ^ DecimalArithmetic.precision →
      ∃ k text, IsLeast {k | p.required ≤ k ∧ FitsPlaces k d} k ∧ k ≤ p.places ∧
        PlainForm text k |d| ∧
        p.write negative rank = .ok (DoubleLayout.signText negative ++ text)) ∧
    (10 ^ DecimalArithmetic.precision ≤ |d| * 10 ^ p.places →
      p.write negative rank = .error .tooManyDigits) := by
  have hshift : p.places ≤ DecimalArithmetic.maxShift := hrange.trans (by decide)
  have habs := p.abs_eq_coefficient hrange h
  have hsteps : |d| * 10 ^ p.places = p.coefficient rank := by
    rw [habs]
    exact div_mul_cancel₀ _ (by positivity)
  obtain ⟨k, hleast, hk, hform⟩ := p.plainForm_layOut hrange hrequired (p.coefficient rank)
  rw [← habs] at hleast hform
  simp only [fitsPlaces_abs] at hleast
  rw [hsteps, write]
  dsimp only [Nat.pow_eq]
  generalize p.coefficient rank = c at *
  refine ⟨fun hlt => ⟨k, p.layOut c, hleast, hk, hform, ?_⟩, fun hle => ?_⟩
  · exact if_pos ⟨hshift, by exact_mod_cast hlt⟩
  · exact if_neg fun hboth => hboth.2.not_ge (by exact_mod_cast hle)

end DecimalPattern

theorem formatDecimal_finite {pattern : String} {p : DecimalPattern}
    (h : DecimalPattern.ofChars? pattern.toList = some p) (negative : Bool)
    (rank : Fin Double.rankCount) :
    formatDecimal pattern (.finite negative rank) = (p.write negative rank).map String.ofList := by
  unfold formatDecimal
  rw [h]

/-- A finite double is written as the nearest decimal with the places of the pattern, without the
places that neither that decimal nor the pattern needs, and with the double's own sign even if
nothing but zeros is left. It is refused if the decimal has more digits than the arithmetic. -/
theorem formatDecimal_rounds {pattern : String} {fraction : List Char} {d : ℚ}
    (hpattern : PatternForm pattern.toList fraction)
    (hrange : fraction.length ≤ DecimalArithmetic.maxPlaces) (negative : Bool)
    (rank : Fin Double.rankCount)
    (hd : IsRounded fraction.length (Double.exactValue negative rank) d) :
    (|d| * 10 ^ fraction.length < 10 ^ DecimalArithmetic.precision →
      ∃ k text, IsLeast {k | fraction.count '0' ≤ k ∧ FitsPlaces k d} k ∧ k ≤ fraction.length ∧
        PlainForm text k |d| ∧ formatDecimal pattern (.finite negative rank) =
          .ok (String.ofList (DoubleLayout.signText negative ++ text))) ∧
    (10 ^ DecimalArithmetic.precision ≤ |d| * 10 ^ fraction.length →
      formatDecimal pattern (.finite negative rank) = .error .tooManyDigits) := by
  obtain ⟨hok, herror⟩ := DecimalPattern.write_of_isRounded
    ⟨fraction.length, fraction.count '0'⟩ hrange List.count_le_length hd
  rw [formatDecimal_finite (DecimalPattern.ofChars?_of_form hpattern)]
  refine ⟨fun hlt => ?_, fun hle => ?_⟩
  · obtain ⟨k, text, hleast, hk, hform, hwrite⟩ := hok hlt
    exact ⟨k, text, hleast, hk, hform, by rw [hwrite]; rfl⟩
  · rw [herror hle]
    rfl

theorem formatDecimal_rounds_eighth :
    ∃ k text, IsLeast {k | 1 ≤ k ∧ FitsPlaces k (-3 / 25)} k ∧ k ≤ 2 ∧ PlainForm text k |-3 / 25| ∧
      formatDecimal "0.0#" (.finite true ⟨1020 * 2 ^ 52, by decide⟩) =
        .ok (String.ofList (DoubleLayout.signText true ++ text)) := by
  have hpattern : PatternForm ((['0'] ++ '.' :: ['0', '#']) ++ []) ['0', '#'] :=
    .pointed (by decide) (by decide) rfl
  have hchars : "0.0#".toList = (['0'] ++ '.' :: ['0', '#']) ++ [] := by decide
  have heighth : Double.exactValue true (1020 * 2 ^ 52) = -1 / 8 := by
    have hunits : Double.units true (1020 * 2 ^ 52) * -8 = Double.unit := by decide +kernel
    have hpos : (0 : ℚ) < Double.unit := by exact_mod_cast Double.unit_pos
    rw [Double.exactValue, div_eq_div_iff hpos.ne' (by decide)]
    have hunits' : (Double.units true (1020 * 2 ^ 52) * -8 : ℚ) = Double.unit := by
      exact_mod_cast hunits
    linarith
  refine (formatDecimal_rounds (d := -3 / 25) (hchars ▸ hpattern) (by decide) true _
    ⟨-12, by norm_num, ?_⟩).1 ?_
  · rw [heighth]
    exact .of_abs_le_half (by norm_num) fun _ => by decide
  · norm_num [DecimalArithmetic.precision]

/-- Twenty-seven digits before the point leave room for one place behind it, not for two. -/
example : formatDecimal "#.##" (Double.ofInt (10 ^ 26)) = .error .tooManyDigits := by
  decide +kernel

end Stencil
