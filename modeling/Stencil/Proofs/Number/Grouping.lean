import Stencil.Proofs.Number.Pattern

/-!
# Commas in a pattern

Commas in front of the point have no effect. Behind the point a comma counts as a place like any
other, so that taking it out of the pattern moves the place at which a number is rounded, and some
number is then written differently (`formatDecimal_ungroup_iff`). The one exception are patterns
of so many places that nothing but zero can be written by them.
-/

set_option autoImplicit false

namespace Stencil

open DecimalArithmetic

/-! ## Rounding to more places -/

/-- A quotient that lies well between two whole numbers is rounded to no whole number if more places
are kept. -/
theorem roundQuotient_mul_pow_ne {n d j : ℕ} (hlow : d ≤ 10 * (n % d))
    (hhigh : 10 * (n % d) < 9 * d) (hj : 0 < j) (c : ℕ) :
    roundQuotient (n * 10 ^ j) d ≠ c * 10 ^ j := by
  obtain ⟨i, rfl⟩ := Nat.exists_eq_add_of_lt hj
  have hten : 10 ^ (0 + i + 1) = 10 * 10 ^ i := by rw [Nat.zero_add, Nat.pow_succ']
  have ht : 0 < 10 ^ i := Nat.pow_pos (by decide)
  -- One more place tells the two apart; those behind it only scale the inequalities.
  rw [hten]
  generalize 10 ^ i = t at *
  have hd : 0 < d := by omega
  have hfloor := le_roundQuotient (n * (10 * t)) d
  have hceiling := roundQuotient_le (n * (10 * t)) d
  have hsplit : n * (10 * t) = n % d * (10 * t) + d * (n / d * (10 * t)) := by
    rw [← Nat.mul_assoc d, ← Nat.add_mul, Nat.mod_add_div]
  rw [hsplit, Nat.add_mul_div_left _ _ hd, ← hsplit] at hfloor hceiling
  have hright : t ≤ n % d * (10 * t) / d := by
    rw [Nat.le_div_iff_mul_le hd]
    calc t * d ≤ t * (10 * (n % d)) := Nat.mul_le_mul_left t hlow
      _ = n % d * (10 * t) := by ring
  have hleft : n % d * (10 * t) / d < 9 * t := by
    rw [Nat.div_lt_iff_lt_mul hd]
    calc n % d * (10 * t) = t * (10 * (n % d)) := by ring
      _ < t * (9 * d) := Nat.mul_lt_mul_of_pos_left hhigh ht
      _ = 9 * t * d := by ring
  intro heq
  rw [heq] at hfloor hceiling
  have hmore : n / d * (10 * t) < c * (10 * t) := by omega
  have hnext := Nat.mul_le_mul_right (10 * t) (Nat.lt_of_mul_lt_mul_right hmore)
  rw [Nat.succ_mul] at hnext
  omega

/-! ## Numbers that tell places apart -/

theorem PlainForm.eq_digits {text : List Char} {k : ℕ} {v : ℚ} (h : PlainForm text k v) :
    v = Nat.ofDigitChars 10 (text.takeWhile (· != '.')) 0 +
      Nat.ofDigitChars 10 ((text.dropWhile (· != '.')).drop 1) 0 /
        10 ^ ((text.dropWhile (· != '.')).drop 1).length := by
  have hdigits (n : ℕ) : ∀ c ∈ Nat.toDigits 10 n, (c != '.') = true := by
    intro c hmem
    rw [bne_iff_ne]
    rintro rfl
    exact absurd (IsDigits.toDigits n _ hmem) (by decide)
  cases h with
  | whole n =>
    rw [List.takeWhile_eq_self_iff.2 (hdigits n), List.dropWhile_eq_nil_iff.2 (hdigits n),
      Nat.ofDigitChars_ten_toDigits]
    simp
  | pointed n hd hne =>
    rw [takeWhile_span (hdigits n) rfl, dropWhile_span (hdigits n) rfl,
      Nat.ofDigitChars_ten_toDigits]
    rfl

/-- From so many places on even the least double has more digits than the arithmetic. No pattern
with as many can write anything but zero, so it does not matter how many there are. -/
def zeroPlaces : ℕ := 352

/-- A number that lies well between two numbers of so many places is the least double, the next one,
or near a quarter of the last place. -/
theorem exists_rank_apart : ∀ places < zeroPlaces,
    ∃ rank ∈ [Double.nearestRank Double.unit (4 * 10 ^ places), 1, 2],
      0 < rank ∧ rank < Double.rankCount ∧
      Double.unit ≤ 10 * (Double.magnitude rank * 10 ^ places % Double.unit) ∧
      10 * (Double.magnitude rank * 10 ^ places % Double.unit) < 9 * Double.unit ∧
      Double.magnitude rank * 10 ^ places / Double.unit + 1 < 10 ^ precision := by
  decide +kernel

theorem pow_zeroPlaces : 10 ^ precision * Double.unit ≤ 10 ^ zeroPlaces := by decide +kernel

namespace DecimalPattern

variable {p q : DecimalPattern} {negative : Bool} {rank : ℕ}

/-! ## Patterns of many places -/

theorem toOption_write (p : DecimalPattern) (negative : Bool) (rank : ℕ) :
    (p.write negative rank).toOption =
      if p.places ≤ maxShift ∧ p.coefficient rank < 10 ^ precision then
        some (DoubleLayout.signText negative ++ p.layOut (p.coefficient rank))
      else none := by
  rw [write]
  dsimp only [Nat.pow_eq]
  split <;> rfl

/-- Nothing but zero is written by a pattern of so many places. Any other number would come to more
digits than the arithmetic has, however small it is. -/
theorem toOption_write_of_zeroPlaces (hplaces : zeroPlaces ≤ p.places) (hrank : 0 < rank) :
    (p.write negative rank).toOption = none := by
  have hlast : zeroPlaces ≤ p.lastPlace := Nat.le_min.2 ⟨hplaces, by decide⟩
  have hmagnitude : 1 ≤ Double.magnitude rank := Double.magnitude_pos (by omega)
  have hcoefficient : 10 ^ precision ≤ p.coefficient rank := by
    refine le_trans ?_ (le_roundQuotient _ _)
    rw [Nat.le_div_iff_mul_le Double.unit_pos]
    calc 10 ^ precision * Double.unit ≤ 1 * 10 ^ zeroPlaces := by
          rw [Nat.one_mul]
          exact pow_zeroPlaces
      _ ≤ Double.magnitude rank * 10 ^ p.lastPlace :=
          Nat.mul_le_mul hmagnitude (Nat.pow_le_pow_right (by decide) hlast)
  rw [toOption_write, if_neg fun hboth => hboth.2.not_ge hcoefficient]

/-- How many zeros are written behind the point of zero. Zero has no digit of its own there, so it
shows how many places a pattern requires. -/
def zeroDigits (p : DecimalPattern) : ℕ := if p.required < p.places then p.required else p.lastPlace

theorem coefficient_zero (p : DecimalPattern) : p.coefficient 0 = 0 := by
  have hzero : Double.magnitude 0 = 0 := by decide +kernel
  have hround := roundQuotient_of_dvd 0 _ Double.unit_pos
  rw [Nat.zero_mul] at hround
  rw [coefficient, hzero, Nat.zero_mul, hround]

theorem placeDigits_zero (places : ℕ) : placeDigits places 0 = DoubleLayout.zeros places := by
  unfold placeDigits
  split
  · rename_i hzero
    rw [hzero]
    rfl
  · have hdigit : Nat.toDigits 10 0 = DoubleLayout.zeros 1 := rfl
    dsimp only
    rw [hdigit, DoubleLayout.length_zeros, DoubleLayout.zeros_append_zeros]
    congr 1
    omega

theorem fractionDigits_zeros (p : DecimalPattern) :
    p.fractionDigits (DoubleLayout.zeros p.lastPlace) = DoubleLayout.zeros p.zeroDigits := by
  have hdrop : dropZeros (DoubleLayout.zeros p.lastPlace) = [] := by
    rw [dropZeros, DoubleLayout.zeros, List.reverse_replicate, List.dropWhile_replicate]
    rfl
  unfold fractionDigits zeroDigits
  rw [hdrop]
  split <;> rfl

theorem layOut_zero (p : DecimalPattern) :
    p.layOut 0 =
      '0' :: if p.zeroDigits = 0 then [] else '.' :: DoubleLayout.zeros p.zeroDigits := by
  rw [layOut, Nat.zero_div, Nat.zero_mod, placeDigits_zero, fractionDigits_zeros]
  cases p.zeroDigits <;> rfl

theorem layOut_zero_eq_iff : p.layOut 0 = q.layOut 0 ↔ p.zeroDigits = q.zeroDigits := by
  rw [layOut_zero, layOut_zero]
  refine ⟨fun h => ?_, fun h => by rw [h]⟩
  have hlength := congrArg List.length h
  split_ifs at hlength <;>
    simp only [List.length_cons, List.length_nil, DoubleLayout.length_zeros] at hlength <;> omega

theorem toOption_write_zero (p : DecimalPattern) (negative : Bool) :
    (p.write negative 0).toOption =
      if p.places ≤ maxShift then some (DoubleLayout.signText negative ++ p.layOut 0)
      else none := by
  rw [toOption_write, coefficient_zero]
  simp only [and_iff_left (show 0 < 10 ^ precision from Nat.pow_pos (by decide))]

/-! ## Patterns that write alike -/

/-- Two patterns that write every finite double as the same text, or both refuse it. Why it is
refused may differ. -/
def Alike (p q : DecimalPattern) : Prop :=
  ∀ negative (rank : Fin Double.rankCount),
    (p.write negative rank).toOption = (q.write negative rank).toOption

/-- Places can be added to a pattern without effect if it can write nothing but zero, and if zero
stays what it was: neither refused because of the new places nor relieved of a digit. Patterns that
long are of no use to anyone; they are the exceptions that an exact condition has to name. -/
def Overlong (p : DecimalPattern) (places : ℕ) : Prop :=
  maxShift < p.places ∨
    zeroPlaces ≤ p.places ∧ places ≤ maxShift ∧ (p.places ≤ maxPlaces ∨ p.required < p.places)

theorem zeroDigits_of_lt (h : p.required < p.places) : p.zeroDigits = p.required := if_pos h

theorem zeroDigits_eq_required_iff (hrequired : p.required ≤ p.places) :
    p.zeroDigits = p.required ↔ p.places ≤ maxPlaces ∨ p.required < p.places := by
  unfold zeroDigits lastPlace
  split <;> omega

theorem alike_iff_of_zeroPlaces (hrequired : p.required ≤ p.places)
    (hsame : q.required = p.required) (hlt : p.places < q.places)
    (hplaces : zeroPlaces ≤ p.places) : Alike p q ↔ Overlong p q.places := by
  have hzero : Alike p q ↔
      ∀ negative, (p.write negative 0).toOption = (q.write negative 0).toOption := by
    refine ⟨fun h negative => h negative ⟨0, by decide⟩, fun h negative rank => ?_⟩
    rcases Nat.eq_zero_or_pos rank.val with hrank | hrank
    · rw [hrank]
      exact h negative
    · rw [toOption_write_of_zeroPlaces hplaces hrank,
        toOption_write_of_zeroPlaces (hplaces.trans hlt.le) hrank]
  have hdigits : p.layOut 0 = q.layOut 0 ↔ p.places ≤ maxPlaces ∨ p.required < p.places := by
    rw [layOut_zero_eq_iff, zeroDigits_of_lt (p := q) (by omega), hsame,
      zeroDigits_eq_required_iff hrequired]
  simp only [hzero, toOption_write_zero, Overlong, ← hdigits]
  by_cases hp : p.places ≤ maxShift
  · by_cases hq : q.places ≤ maxShift
    · simp [hp, hq, hplaces]
    · simp [hp, hq]
  · have hq : ¬ q.places ≤ maxShift := by omega
    simp [hp, hq, not_le.1 hp]

theorem eq_mul_pow_of_layOut {m n j : ℕ} (hp : p.required ≤ p.places)
    (hq : q.required ≤ q.places) (hplaces : q.places ≤ maxPlaces) (hj : q.places = p.places + j)
    (htext : p.layOut m = q.layOut n) : n = m * 10 ^ j := by
  obtain ⟨k, -, -, hform⟩ := p.plainForm_layOut (by omega) hp m
  obtain ⟨k', -, -, hform'⟩ := q.plainForm_layOut hplaces hq n
  rw [← htext] at hform'
  have hvalue := hform.eq_digits.trans hform'.eq_digits.symm
  rw [hj, pow_add] at hvalue
  field_simp at hvalue
  exact_mod_cast hvalue.symm

/-- As long as other numbers than zero can be written, a further place shows in one of them. For
each count of places one of three doubles lies well between two numbers of so many places, and is
rounded there. -/
theorem not_alike_of_lt_zeroPlaces (hrequired : p.required ≤ p.places)
    (hsame : q.required = p.required) (hlt : p.places < q.places)
    (hplaces : p.places < zeroPlaces) : ¬ Alike p q := by
  intro halike
  obtain ⟨rank, -, hpos, hrank, hlow, hhigh, hdigits⟩ := exists_rank_apart p.places hplaces
  have hmax : zeroPlaces ≤ maxPlaces := by decide
  have hlast : p.lastPlace = p.places := min_eq_left (by omega)
  have hwrite := halike false ⟨rank, hrank⟩
  have hshift : maxPlaces ≤ maxShift := by decide
  have hshort : p.places ≤ maxShift ∧ p.coefficient rank < 10 ^ precision := by
    refine ⟨by omega, (roundQuotient_le _ _).trans_lt ?_⟩
    rw [hlast]
    exact hdigits
  rw [toOption_write, if_pos hshort] at hwrite
  have hq : q.places < zeroPlaces := by
    by_contra hq
    rw [toOption_write_of_zeroPlaces (not_lt.1 hq) hpos] at hwrite
    exact absurd hwrite (by simp)
  have hlast' : q.lastPlace = q.places := min_eq_left (by omega)
  rw [toOption_write] at hwrite
  split at hwrite
  · -- Both texts are the same decimal, which the second pattern has rounded to more places.
    obtain ⟨j, hj⟩ := Nat.exists_eq_add_of_le hlt.le
    have hsteps := eq_mul_pow_of_layOut hrequired (by omega) (by omega) hj
      (List.append_cancel_left (Option.some.inj hwrite))
    refine roundQuotient_mul_pow_ne hlow hhigh (j := j) (by omega) (p.coefficient rank) ?_
    rw [← hsteps, coefficient, hlast', hj, Nat.mul_assoc, ← Nat.pow_add]
    rfl
  · exact absurd hwrite (by simp)

theorem alike_iff (hrequired : p.required ≤ p.places) (hsame : q.required = p.required)
    (hlt : p.places < q.places) : Alike p q ↔ Overlong p q.places := by
  by_cases hplaces : zeroPlaces ≤ p.places
  · exact alike_iff_of_zeroPlaces hrequired hsame hlt hplaces
  · have hmax : zeroPlaces ≤ maxShift := by decide
    refine iff_of_false (not_alike_of_lt_zeroPlaces hrequired hsame hlt (not_le.1 hplaces)) ?_
    unfold Overlong
    omega

/-! ## Patterns without their commas -/

/-- A pattern without the commas of its first part. What stands behind a semicolon is kept as it is,
since nothing of it is read. -/
def ungroup (cs : List Char) : List Char :=
  (positivePart cs).filter (· != ',') ++ cs.dropWhile (· != ';')

theorem positivePart_ungroup (cs : List Char) :
    positivePart (ungroup cs) = (positivePart cs).filter (· != ',') :=
  takeWhile_span (fun _ hmem => by simpa using List.mem_takeWhile_imp (List.mem_of_mem_filter hmem))
    (head?_dropWhile _ cs)

theorem isSupported_filter {positive : List Char} (hplace : '0' ∈ positive ∨ '#' ∈ positive) :
    isSupported (positive.filter (· != ',')) = isSupported positive := by
  have hne : positive ≠ [] := by
    rintro rfl
    simp at hplace
  have hne' : positive.filter (· != ',') ≠ [] := by
    rw [Ne, List.filter_eq_nil_iff]
    intro hall
    rcases hplace with hmem | hmem <;> exact hall _ hmem rfl
  have hcount : (positive.filter (· != ',')).count '.' = positive.count '.' :=
    List.count_filter rfl
  have htext : IsPatternText (positive.filter (· != ',')) ↔ IsPatternText positive := by
    refine ⟨fun h c hmem => ?_, fun h c hmem => h c (List.mem_of_mem_filter hmem)⟩
    by_cases hc : c = ','
    · exact .inr (.inr (.inr hc))
    · exact h c (List.mem_filter.2 ⟨hmem, bne_iff_ne.2 hc⟩)
  rw [Bool.eq_iff_iff, isSupported_iff, isSupported_iff, hcount, htext]
  simp only [hne, hne', ne_eq, not_false_eq_true, true_and]

theorem drop_dropWhile_filter (positive : List Char) :
    ((positive.filter (· != ',')).dropWhile (· != '.')).drop 1 =
      ((positive.dropWhile (· != '.')).drop 1).filter (· != ',') := by
  induction positive with
  | nil => rfl
  | cons c cs ih =>
    by_cases hcomma : c = ','
    · subst hcomma
      exact ih
    · rw [List.filter_cons_of_pos (p := (· != ',')) (bne_iff_ne.2 hcomma)]
      by_cases hpoint : c = '.'
      · subst hpoint
        rfl
      · have hpoint' : (c != '.') = true := bne_iff_ne.2 hpoint
        rw [List.dropWhile_cons, List.dropWhile_cons, if_pos hpoint', if_pos hpoint']
        exact ih

section

variable {cs fraction : List Char}

theorem count_filter_comma (fraction : List Char) :
    (fraction.filter (· != ',')).count '0' = fraction.count '0' :=
  List.count_filter rfl

theorem ofChars?_ungroup_of_form (hplace : '0' ∈ positivePart cs ∨ '#' ∈ positivePart cs)
    (h : PatternForm cs fraction) : ofChars? (ungroup cs) =
      some ⟨(fraction.filter (· != ',')).length, fraction.count '0'⟩ := by
  obtain ⟨hsupported, hfraction⟩ := isSupported_of_form h
  unfold ofChars?
  dsimp only
  rw [positivePart_ungroup, isSupported_filter hplace, if_pos hsupported, drop_dropWhile_filter,
    hfraction, count_filter_comma]

theorem ofChars?_ungroup_of_not_isSupported
    (hplace : '0' ∈ positivePart cs ∨ '#' ∈ positivePart cs)
    (h : isSupported (positivePart cs) = false) :
    ofChars? cs = none ∧ ofChars? (ungroup cs) = none := by
  unfold ofChars?
  dsimp only
  rw [positivePart_ungroup, isSupported_filter hplace, h]
  exact ⟨rfl, rfl⟩

theorem alike_filter_iff (fraction : List Char) :
    Alike ⟨(fraction.filter (· != ',')).length, fraction.count '0'⟩
        ⟨fraction.length, fraction.count '0'⟩ ↔
      ',' ∉ fraction ∨
        Overlong ⟨(fraction.filter (· != ',')).length, fraction.count '0'⟩ fraction.length := by
  by_cases hcomma : ',' ∈ fraction
  · have hrequired : fraction.count '0' ≤ (fraction.filter (· != ',')).length :=
      count_filter_comma fraction ▸ List.count_le_length
    have hlt : (fraction.filter (· != ',')).length < fraction.length :=
      List.length_filter_lt_length_iff_exists.2 ⟨',', hcomma, by decide⟩
    rw [or_iff_right (not_not.2 hcomma)]
    exact alike_iff hrequired rfl hlt
  · have hfilter : fraction.filter (· != ',') = fraction := by
      rw [List.filter_eq_self]
      intro c hmem
      rw [bne_iff_ne]
      rintro rfl
      exact hcomma hmem
    rw [hfilter]
    exact iff_of_true (fun _ _ => rfl) (.inl hcomma)

end

end DecimalPattern

open DecimalPattern

theorem toOption_formatDecimal_iff {pattern pattern' : String} {p p' : DecimalPattern}
    (h : ofChars? pattern.toList = some p) (h' : ofChars? pattern'.toList = some p') :
    (∀ x, (formatDecimal pattern x).toOption = (formatDecimal pattern' x).toOption) ↔
      Alike p' p := by
  have hinj : Function.Injective (Option.map String.ofList) :=
    Option.map_injective fun _ _ => String.ofList_injective
  have hmap (x : Except PatternFault (List Char)) :
      (x.map String.ofList).toOption = x.toOption.map String.ofList := by cases x <;> rfl
  constructor
  · intro hsame negative rank
    have hx := hsame (.finite negative rank)
    rw [formatDecimal_finite h, formatDecimal_finite h', hmap, hmap] at hx
    exact (hinj hx).symm
  · intro halike x
    cases x with
    | nan => simp [formatDecimal, h, h', Except.toOption]
    | infinite negative => simp [formatDecimal, h, h', Except.toOption]
    | finite negative rank =>
      rw [formatDecimal_finite h, formatDecimal_finite h', hmap, hmap, halike negative rank]

/-- Without the commas of its first part a pattern writes every double as it does with them, or both
refuse it, just if it is not supported at all, if no comma stands behind its point, or if it has too
many places for that to show. -/
theorem formatDecimal_ungroup_iff {pattern : String}
    (hplace : '0' ∈ positivePart pattern.toList ∨ '#' ∈ positivePart pattern.toList) :
    (∀ x, (formatDecimal pattern x).toOption =
        (formatDecimal (String.ofList (ungroup pattern.toList)) x).toOption) ↔
      ∀ fraction, PatternForm pattern.toList fraction → ',' ∉ fraction ∨
        Overlong ⟨(fraction.filter (· != ',')).length, fraction.count '0'⟩ fraction.length := by
  cases hsupported : isSupported (positivePart pattern.toList) with
  | true =>
    have hform := form_of_isSupported hsupported
    have hungroup := ofChars?_ungroup_of_form hplace hform
    rw [← String.toList_ofList (l := ungroup pattern.toList)] at hungroup
    rw [toOption_formatDecimal_iff (ofChars?_of_form hform) hungroup, alike_filter_iff]
    refine ⟨fun h fraction hfraction => ?_, fun h => h _ hform⟩
    rwa [← (isSupported_of_form hfraction).2]
  | false =>
    obtain ⟨hnone, hnone'⟩ := ofChars?_ungroup_of_not_isSupported hplace hsupported
    refine iff_of_true (fun x => ?_) fun fraction hfraction => ?_
    · rw [← String.toList_ofList (l := ungroup pattern.toList)] at hnone'
      unfold formatDecimal
      rw [hnone, hnone']
      rfl
    · rw [(isSupported_of_form hfraction).1] at hsupported
      exact absurd hsupported (by decide)

theorem formatDecimal_ungroup_iff_thousands :
    '0' ∈ positivePart "#,##0.0".toList ∧
      ∀ x, (formatDecimal "#,##0.0" x).toOption = (formatDecimal "###0.0" x).toOption := by
  have hplace : '0' ∈ positivePart "#,##0.0".toList := by decide
  have hungroup : String.ofList (ungroup "#,##0.0".toList) = "###0.0" := by decide
  refine ⟨hplace, ?_⟩
  rw [← hungroup]
  refine (formatDecimal_ungroup_iff (.inl hplace)).2 fun fraction hfraction => .inl ?_
  rw [← (isSupported_of_form hfraction).2]
  decide

/-- A comma behind the point is a second place, at which a quarter is not rounded. Without the comma
there is one place, and the quarter becomes two tenths. -/
theorem not_formatDecimal_ungroup :
    let quarter : Double := .finite false ⟨1021 * 2 ^ 52, by decide⟩
    '0' ∈ positivePart "0.#,".toList ∧ String.ofList (ungroup "0.#,".toList) = "0.#" ∧
      formatDecimal "0.#," quarter = .ok "0.25" ∧ formatDecimal "0.#" quarter = .ok "0.2" := by
  decide +kernel

end Stencil
