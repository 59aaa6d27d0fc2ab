import Stencil.Proofs.Replies
import Stencil.Proofs.Steps
import Stencil.Proofs.Value.Order

/-!
# Arithmetic on a cell

What a sequence of operations can make of a cell, whatever values they are given. A value is either
fit to be an operand or it is `Unfit` for one of three reasons; an operation fails for such a reason
or because it would divide by zero (`Op.Fails`), and then it changes nothing. Where it succeeds,
`Op.GivesWhole` says when a whole number is left. `replies_lawful` puts this together, for each
operation behind any others.
-/

set_option autoImplicit false

namespace Stencil

open Double (Fits)

/-! ## Operands -/

/-- A text that is read as a number of a kind. -/
def NumberKind.Reads (s : String) : NumberKind → Prop
  | .integer => ∃ n, Literal.integer? (trim s.toList) = some n
  | .double => ∃ x, readDouble? s = some x

namespace Value

def isWhole : Value → Bool
  | .integer _ => true
  | _ => false

/-- A value that is a whole number once it is read as a number: an integer, the text of one, or
nothing at all. -/
def CountsWhole (v : Value) : Prop := ∃ n, v.toNumber = .ok (.integer n)

/-- Why a value is no operand: it is of a kind that templates do not know, it is a text that is not
read as the number that is due, or it is too large where a double is due. -/
inductive Unfit : Value → ValueFault → Prop
  | unsupported (kind : Foreign) : Unfit (.foreign kind) (.unsupported kind)
  | notNumber {s : String} {kind : NumberKind} (h : ¬ kind.Reads s) :
      Unfit (.text s) (.notNumber s kind)
  | tooLarge {v : Value} {n : Int} (h : v.toNumber = .ok (.integer n)) (hn : ¬ Fits n) :
      Unfit v .tooLarge

variable {v : Value} {a : Number} {fault : ValueFault}

theorem unfit_of_toNumber (h : v.toNumber = .error fault) : v.Unfit fault := by
  cases v with
  | foreign kind =>
    cases h
    exact .unsupported kind
  | text s =>
    rw [toNumber, Number.ofText] at h
    split at h
    · obtain ⟨hs, rfl⟩ := eq_none_of_elim_eq_error h
      exact .notNumber (by simp [NumberKind.Reads, hs])
    · obtain ⟨hs, rfl⟩ := eq_none_of_elim_eq_error h
      exact .notNumber (by simp [NumberKind.Reads, hs])
  | _ => exact absurd h (by simp [toNumber])

theorem unfit_of_toDouble (h : v.toDouble = .error fault) : v.Unfit fault := by
  cases v with
  | foreign kind =>
    cases h
    exact .unsupported kind
  | text s =>
    obtain ⟨hs, rfl⟩ := eq_none_of_elim_eq_error h
    exact .notNumber (by simp [NumberKind.Reads, hs])
  | integer n =>
    obtain ⟨hn, rfl⟩ := not_fits_of_toDouble_integer h
    exact .tooLarge rfl hn
  | _ => exact absurd h (by simp [toDouble])

theorem toDouble_toValue (a : Number) : a.toValue.toDouble = a.toDouble := by
  cases a <;> rfl

theorem unfit_of_number (h : v.toNumber = .ok a) (ha : a.toDouble = .error fault) :
    v.Unfit fault := by
  have hnumber : a.toValue.Unfit fault := unfit_of_toDouble ((toDouble_toValue a).trans ha)
  cases a with
  | double x => exact absurd ha (by simp [Number.toDouble])
  | integer n =>
    cases hnumber with
    | tooLarge hsame hfits =>
      cases hsame
      exact .tooLarge h hfits

theorem countsWhole_iff (h : v.toNumber = .ok a) : v.CountsWhole ↔ a.toValue.isWhole = true := by
  unfold CountsWhole
  cases a <;> simp [h, Number.toValue, isWhole]

end Value

namespace Number

variable {a : Number} {fault : ValueFault}

theorem isWhole_neg (a : Number) : a.neg.toValue.isWhole = a.toValue.isWhole := by
  cases a <;> rfl

theorem toDouble_of_neg (h : a.neg.toDouble = .error fault) : a.toDouble = .error fault := by
  cases a with
  | double x => exact absurd h (by simp [neg, toDouble])
  | integer n =>
    have hsame : Fits (-n) ↔ Fits n := by rw [Fits, Fits, Int.natAbs_neg]
    have hunfit : (Value.integer (-n)).Unfit fault := Value.unfit_of_toDouble h
    cases hunfit with
    | tooLarge hsame' hfits =>
      cases hsame'
      exact Value.toDouble_integer_of_not_fits (fun hn => hfits (hsame.2 hn))

end Number

namespace Cell

/-! ## Numbers put together -/

section

variable {whole : Int → Int → Int} {real : Double → Double → Double} {v w : Value} {a : Number}
  {c c' : Cell} {fault : ValueFault}

theorem combine_of_not_whole (h : ¬ (v.isWhole = true ∧ a.toValue.isWhole = true)) :
    combine whole real v a = (do
      let x ← v.toDouble
      let y ← a.toDouble
      .ok (.double (real x y))) := by
  cases v with
  | integer n =>
    cases a with
    | integer m => exact absurd ⟨rfl, rfl⟩ h
    | double y => rfl
  | _ => rfl

theorem kind_of_combine (h : combine whole real v a = .ok w) :
    w.isSupported = true ∧ (w.isWhole = true ↔ v.isWhole = true ∧ a.toValue.isWhole = true) := by
  by_cases hboth : v.isWhole = true ∧ a.toValue.isWhole = true
  · cases v with
    | integer n =>
      cases a with
      | integer m =>
        cases h
        exact ⟨rfl, iff_of_true rfl hboth⟩
      | double y => exact absurd hboth.2 (by simp [Number.toValue, Value.isWhole])
    | _ => exact absurd hboth.1 (by simp [Value.isWhole])
  · rw [combine_of_not_whole hboth] at h
    obtain ⟨x, -, h⟩ := bind_eq_ok_iff.1 h
    obtain ⟨y, -, h⟩ := bind_eq_ok_iff.1 h
    cases h
    exact ⟨rfl, iff_of_false (by simp [Value.isWhole]) hboth⟩

theorem fault_of_combine (h : combine whole real v a = .error fault) :
    v.Unfit fault ∨ a.toDouble = .error fault := by
  by_cases hboth : v.isWhole = true ∧ a.toValue.isWhole = true
  · cases v with
    | integer n =>
      cases a with
      | integer m => exact absurd h (by simp [combine])
      | double y => exact absurd hboth.2 (by simp [Number.toValue, Value.isWhole])
    | _ => exact absurd hboth.1 (by simp [Value.isWhole])
  · rw [combine_of_not_whole hboth] at h
    rcases bind_eq_error_iff.1 h with h | ⟨x, -, h⟩
    · exact .inl (Value.unfit_of_toDouble h)
    · rcases bind_eq_error_iff.1 h with h | ⟨y, -, h⟩
      · exact .inr h
      · exact absurd h (by simp)

theorem addNumber_of_ne_absent (h : c.value ≠ .absent) (a : Number) :
    c.addNumber a = (combine (· + ·) Double.add c.value a).map Cell.mk := by
  unfold addNumber
  split
  · rename_i habsent
    exact absurd habsent h
  · rfl

theorem kind_of_addNumber (h : c.addNumber a = .ok c') :
    c'.value.isSupported = true ∧ (c'.value.isWhole = true ↔
      a.toValue.isWhole = true ∧ (c.value.isWhole = true ∨ c.value = .absent)) := by
  by_cases habsent : c.value = .absent
  · rw [addNumber, habsent] at h
    cases h
    refine ⟨?_, ?_⟩
    · cases a <;> rfl
    · simp [habsent]
  · rw [addNumber_of_ne_absent habsent] at h
    obtain ⟨w, hw, rfl⟩ := map_eq_ok_iff.1 h
    obtain ⟨hsupported, hwhole⟩ := kind_of_combine hw
    exact ⟨hsupported, by rw [hwhole, and_comm, or_iff_left habsent]⟩

theorem fault_of_addNumber (h : c.addNumber a = .error fault) :
    c.value.Unfit fault ∨ a.toDouble = .error fault := by
  by_cases habsent : c.value = .absent
  · rw [addNumber, habsent] at h
    exact absurd h (by simp)
  · rw [addNumber_of_ne_absent habsent, map_eq_error_iff] at h
    exact fault_of_combine h

end

/-! ## One operation -/

namespace Op

def argument : Op → Value
  | .increment v => v
  | .decrement v => v
  | .multiply v => v
  | .divide v => v
  | .compare v => v
  | .assign v => v

/-- Why an operation on a held value fails: one of the two values is unfit, or something is divided
by zero. Which of the two is looked at first is left open, so one operation may have two such
faults. -/
inductive Fails (held : Value) : Op → ValueFault → Prop
  | held {op : Op} {fault : ValueFault} (h : held.Unfit fault) : Fails held op fault
  | argument {op : Op} {fault : ValueFault} (h : op.argument.Unfit fault) : Fails held op fault
  | divisionByZero {v : Value} (h : v = .absent ∨ ∃ a, v.toNumber = .ok a ∧ a.isZero = true) :
      Fails held (.divide v) .divisionByZero

/-- When an operation with a value that is present leaves a whole number. The kinds of the two
values decide it and never their size, so that whole numbers stay whole however large they get. -/
def GivesWhole (held : Value) : Op → Prop
  | .increment v => v.CountsWhole ∧ (held.isWhole = true ∨ held = .absent)
  | .decrement v => v.CountsWhole ∧ (held.isWhole = true ∨ held = .absent)
  | .multiply v => held = .absent ∨ held.isWhole = true ∧ v.CountsWhole
  | .divide _ => held = .absent
  | .compare _ => held.isWhole = true
  | .assign v => v.isWhole = true

end Op

def effect (c : Cell) : Op → Except ValueFault Cell
  | .increment v => c.increment v
  | .decrement v => c.decrement v
  | .multiply v => c.multiply v
  | .divide v => c.divide v
  | .compare v => (c.compare v).map fun _ => c
  | .assign v => ofValue v

section

variable {c c' : Cell} {v : Value} {op : Op} {fault : ValueFault}

theorem update_cases (c : Cell) (r : Except ValueFault Cell) :
    (∃ c', r = .ok c' ∧ apply.update c r = (.ok none, c')) ∨
      ∃ fault, r = .error fault ∧ apply.update c r = (.error fault, c) := by
  cases r with
  | ok c' => exact .inl ⟨c', rfl, rfl⟩
  | error fault => exact .inr ⟨fault, rfl, rfl⟩

/-- An operation either succeeds and has its effect, or it fails and has none. Everything else about
single operations is said of their effects, and this is how it gets to the cell. -/
theorem apply_cases (c : Cell) (op : Op) :
    (∃ answer c', c.effect op = .ok c' ∧ c.apply op = (.ok answer, c')) ∨
      ∃ fault, c.effect op = .error fault ∧ c.apply op = (.error fault, c) := by
  have hupdate (r : Except ValueFault Cell) (heffect : c.effect op = r)
      (happly : c.apply op = apply.update c r) :
      (∃ answer c', c.effect op = .ok c' ∧ c.apply op = (.ok answer, c')) ∨
        ∃ fault, c.effect op = .error fault ∧ c.apply op = (.error fault, c) := by
    rw [heffect, happly]
    rcases update_cases c r with ⟨c', hr, hu⟩ | ⟨fault, hr, hu⟩
    · exact .inl ⟨none, c', hr, hu⟩
    · exact .inr ⟨fault, hr, hu⟩
  cases op with
  | increment v => exact hupdate _ rfl rfl
  | decrement v => exact hupdate _ rfl rfl
  | multiply v => exact hupdate _ rfl rfl
  | divide v => exact hupdate _ rfl rfl
  | assign v => exact hupdate _ rfl rfl
  | compare v =>
    cases h : c.compare v with
    | ok sign =>
      refine .inl ⟨some sign, c, map_eq_ok_iff.2 ⟨sign, h, rfl⟩, Prod.ext ?_ rfl⟩
      exact map_eq_ok_iff.2 ⟨sign, h, rfl⟩
    | error fault =>
      exact .inr ⟨fault, map_eq_error_iff.2 h, Prod.ext (map_eq_error_iff.2 h) rfl⟩

theorem increment_of_ne_absent (h : v ≠ .absent) :
    c.increment v = (do c.addNumber (← v.toNumber)) := by
  cases v with
  | absent => exact absurd rfl h
  | _ => rfl

theorem decrement_of_ne_absent (h : v ≠ .absent) :
    c.decrement v = (do c.addNumber (← v.toNumber).neg) := by
  cases v with
  | absent => exact absurd rfl h
  | _ => rfl

theorem multiply_of_absent (h : v ≠ .absent) (hc : c.value = .absent) :
    c.multiply v = (do
      let _ ← v.toNumber
      .ok ⟨.integer 0⟩) := by
  obtain ⟨held⟩ := c
  subst hc
  cases v with
  | absent => exact absurd rfl h
  | _ => rfl

theorem multiply_of_ne_absent (h : v ≠ .absent) (hc : c.value ≠ .absent) :
    c.multiply v = (do
      let a ← v.toNumber
      (combine (· * ·) Double.mul c.value a).map Cell.mk) := by
  unfold multiply
  split
  · exact absurd rfl h
  · congr 1
    funext a
    split
    · rename_i hheld
      exact absurd hheld hc
    · rfl

theorem divide_eq_ok (h : c.divide v = .ok c') :
    c.value = .absent ∧ c' = ⟨.integer 0⟩ ∨ c.value ≠ .absent ∧ ∃ x, c' = ⟨.double x⟩ := by
  unfold divide at h
  split at h
  · exact absurd h (by simp)
  · obtain ⟨a, -, h⟩ := bind_eq_ok_iff.1 h
    split at h
    · exact absurd h (by simp)
    · split at h
      · rename_i habsent
        cases h
        exact .inl ⟨habsent, rfl⟩
      · rename_i hpresent
        obtain ⟨x, -, h⟩ := bind_eq_ok_iff.1 h
        obtain ⟨y, -, h⟩ := bind_eq_ok_iff.1 h
        cases h
        exact .inr ⟨hpresent, _, rfl⟩

theorem fault_of_divide (h : c.divide v = .error fault) : Op.Fails c.value (.divide v) fault := by
  unfold divide at h
  split at h
  · cases h
    exact .divisionByZero (.inl rfl)
  · rcases bind_eq_error_iff.1 h with h | ⟨a, ha, h⟩
    · exact .argument (Value.unfit_of_toNumber h)
    · split at h
      · rename_i hzero
        cases h
        exact .divisionByZero (.inr ⟨a, ha, hzero⟩)
      · split at h
        · exact absurd h (by simp)
        · rcases bind_eq_error_iff.1 h with h | ⟨x, -, h⟩
          · exact .held (Value.unfit_of_toDouble h)
          · rcases bind_eq_error_iff.1 h with h | ⟨y, -, h⟩
            · exact .argument (Value.unfit_of_number ha h)
            · exact absurd h (by simp)

theorem isSupported_of_effect (hc : c.value.isSupported = true) (h : c.effect op = .ok c') :
    c'.value.isSupported = true := by
  cases op with
  | increment v =>
    by_cases hv : v = .absent
    · subst hv
      cases h
      exact hc
    · obtain ⟨a, -, h⟩ := bind_eq_ok_iff.1 ((increment_of_ne_absent hv).symm.trans h)
      exact (kind_of_addNumber h).1
  | decrement v =>
    by_cases hv : v = .absent
    · subst hv
      cases h
      exact hc
    · obtain ⟨a, -, h⟩ := bind_eq_ok_iff.1 ((decrement_of_ne_absent hv).symm.trans h)
      exact (kind_of_addNumber h).1
  | multiply v =>
    by_cases hv : v = .absent
    · subst hv
      cases h
      rfl
    · by_cases hheld : c.value = .absent
      · obtain ⟨a, -, h⟩ := bind_eq_ok_iff.1 ((multiply_of_absent hv hheld).symm.trans h)
        cases h
        rfl
      · obtain ⟨a, -, h⟩ := bind_eq_ok_iff.1 ((multiply_of_ne_absent hv hheld).symm.trans h)
        obtain ⟨w, hw, rfl⟩ := map_eq_ok_iff.1 h
        exact (kind_of_combine hw).1
  | divide v =>
    rcases divide_eq_ok h with ⟨-, rfl⟩ | ⟨-, x, rfl⟩
    · rfl
    · rfl
  | compare v =>
    obtain ⟨sign, -, rfl⟩ := map_eq_ok_iff.1 h
    exact hc
  | assign v =>
    cases v with
    | foreign kind => exact absurd h (by simp [effect, ofValue])
    | _ =>
      cases h
      rfl

theorem isWhole_of_effect (hv : op.argument ≠ .absent) (h : c.effect op = .ok c') :
    c'.value.isWhole = true ↔ op.GivesWhole c.value := by
  cases op with
  | increment v =>
    have hv : v ≠ .absent := hv
    obtain ⟨a, ha, h⟩ := bind_eq_ok_iff.1 ((increment_of_ne_absent hv).symm.trans h)
    rw [Op.GivesWhole, (kind_of_addNumber h).2, Value.countsWhole_iff ha]
  | decrement v =>
    have hv : v ≠ .absent := hv
    obtain ⟨a, ha, h⟩ := bind_eq_ok_iff.1 ((decrement_of_ne_absent hv).symm.trans h)
    rw [Op.GivesWhole, (kind_of_addNumber h).2, Value.countsWhole_iff ha, Number.isWhole_neg]
  | multiply v =>
    have hv : v ≠ .absent := hv
    by_cases hheld : c.value = .absent
    · obtain ⟨a, -, h⟩ := bind_eq_ok_iff.1 ((multiply_of_absent hv hheld).symm.trans h)
      cases h
      exact iff_of_true rfl (.inl hheld)
    · obtain ⟨a, ha, h⟩ := bind_eq_ok_iff.1 ((multiply_of_ne_absent hv hheld).symm.trans h)
      obtain ⟨w, hw, rfl⟩ := map_eq_ok_iff.1 h
      rw [Op.GivesWhole, or_iff_right hheld, Value.countsWhole_iff ha]
      exact (kind_of_combine hw).2
  | divide v =>
    rcases divide_eq_ok h with ⟨hheld, rfl⟩ | ⟨hheld, x, rfl⟩
    · exact iff_of_true rfl hheld
    · exact iff_of_false (by simp [Value.isWhole]) hheld
  | compare v =>
    obtain ⟨sign, -, rfl⟩ := map_eq_ok_iff.1 h
    exact Iff.rfl
  | assign v =>
    cases v with
    | foreign kind => exact absurd h (by simp [effect, ofValue])
    | _ =>
      cases h
      exact Iff.rfl

theorem fails_of_effect (h : c.effect op = .error fault) : op.Fails c.value fault := by
  cases op with
  | increment v =>
    by_cases hv : v = .absent
    · subst hv
      exact absurd h (by simp [effect, increment])
    · rcases bind_eq_error_iff.1 ((increment_of_ne_absent hv).symm.trans h) with h | ⟨a, ha, h⟩
      · exact .argument (Value.unfit_of_toNumber h)
      · rcases fault_of_addNumber h with h | h
        · exact .held h
        · exact .argument (Value.unfit_of_number ha h)
  | decrement v =>
    by_cases hv : v = .absent
    · subst hv
      exact absurd h (by simp [effect, decrement])
    · rcases bind_eq_error_iff.1 ((decrement_of_ne_absent hv).symm.trans h) with h | ⟨a, ha, h⟩
      · exact .argument (Value.unfit_of_toNumber h)
      · rcases fault_of_addNumber h with h | h
        · exact .held h
        · exact .argument (Value.unfit_of_number ha (Number.toDouble_of_neg h))
  | multiply v =>
    by_cases hv : v = .absent
    · subst hv
      exact absurd h (by simp [effect, multiply])
    · by_cases hheld : c.value = .absent
      · rcases bind_eq_error_iff.1 ((multiply_of_absent hv hheld).symm.trans h) with h | ⟨a, -, h⟩
        · exact .argument (Value.unfit_of_toNumber h)
        · exact absurd h (by simp)
      · rcases bind_eq_error_iff.1 ((multiply_of_ne_absent hv hheld).symm.trans h) with
          h | ⟨a, ha, h⟩
        · exact .argument (Value.unfit_of_toNumber h)
        · rcases fault_of_combine (map_eq_error_iff.1 h) with h | h
          · exact .held h
          · exact .argument (Value.unfit_of_number ha h)
  | divide v => exact fault_of_divide h
  | compare v =>
    rcases bind_eq_error_iff.1 (map_eq_error_iff.1 h) with h | ⟨x, -, h⟩
    · exact .held (Value.unfit_of_toDouble h)
    · rcases bind_eq_error_iff.1 h with h | ⟨y, -, h⟩
      · exact .argument (Value.unfit_of_toDouble h)
      · exact absurd h (by simp)
  | assign v =>
    cases v with
    | foreign kind =>
      cases h
      exact .argument (.unsupported kind)
    | _ => exact absurd h (by simp [effect, ofValue])

/-! ## Sequences of operations -/

theorem isSupported_apply (h : c.value.isSupported = true) (op : Op) :
    (c.apply op).2.value.isSupported = true := by
  rcases apply_cases c op with ⟨answer, c', heffect, happly⟩ | ⟨fault, -, happly⟩
  · rw [happly]
    exact isSupported_of_effect h heffect
  · rw [happly]
    exact h

theorem isSupported_of_ofValue (h : ofValue v = .ok c) : c.value.isSupported = true := by
  cases v with
  | foreign kind => exact absurd h (by simp [ofValue])
  | _ =>
    cases h
    rfl

/-- Whatever operations a cell is put through, with values of any kind and going on behind those
that fail, it holds a value of a kind that templates know. Each operation then is one of two. If it
fails it changes nothing, and it fails because an operand is unfit or because nothing is divided by
zero. If it succeeds, and its argument is present, the kinds of the operands decide whether a whole
number is left. A comparison never changes the cell. -/
theorem replies_lawful (h : ofValue v = .ok c) (ops : List Op) :
    let held := (replies apply c ops).2
    held.value.isSupported = true ∧ ∀ op,
      (∀ fault, (held.apply op).1 = .error fault →
        (held.apply op).2 = held ∧ op.Fails held.value fault) ∧
      (∀ answer, (held.apply op).1 = .ok answer → op.argument ≠ .absent →
        ((held.apply op).2.value.isWhole = true ↔ op.GivesWhole held.value)) ∧
      ∀ v, op = .compare v → (held.apply op).2 = held := by
  intro held
  have hheld : held.value.isSupported = true :=
    replies_kept (Q := fun c : Cell => c.value.isSupported = true)
      (fun _ op h => isSupported_apply h op) (isSupported_of_ofValue h) ops
  refine ⟨hheld, fun op => ?_⟩
  rcases apply_cases held op with ⟨answer, c', heffect, happly⟩ | ⟨fault, heffect, happly⟩
  · rw [happly]
    refine ⟨fun _ h => absurd h (by simp), fun _ _ hv => isWhole_of_effect hv heffect, ?_⟩
    rintro v rfl
    obtain ⟨sign, -, rfl⟩ := map_eq_ok_iff.1 heffect
    rfl
  · rw [happly]
    refine ⟨fun fault' hfault => ?_, fun _ h => absurd h (by simp), fun _ _ => rfl⟩
    cases hfault
    exact ⟨rfl, fails_of_effect heffect⟩

/-- A text is added to nothing, and two operations fail; behind these one more fails, and one
succeeds. -/
theorem replies_lawful_seven :
    let ops := [.increment (.text " 7 "), .divide (.integer 0), .multiply (.foreign .list)]
    let held : Cell := ⟨.integer 7⟩
    ofValue .absent = .ok ⟨.absent⟩ ∧ (replies apply ⟨.absent⟩ ops).2 = held ∧
      (held.apply (.decrement (.text "x"))).1 = .error (.notNumber "x" .integer) ∧
      Op.Fails held.value (.decrement (.text "x")) (.notNumber "x" .integer) ∧
      (held.apply (.multiply (.text "-2"))).1 = .ok none ∧
      ((held.apply (.multiply (.text "-2"))).2.value.isWhole = true ↔
        held.value = .absent ∨ held.value.isWhole = true ∧ Value.CountsWhole (.text "-2")) := by
  intro ops held
  have hrun : (replies apply ⟨.absent⟩ ops).2 = held := by decide +kernel
  have hfail : (held.apply (.decrement (.text "x"))).1 = .error (.notNumber "x" .integer) := by
    decide +kernel
  have hsuccess : (held.apply (.multiply (.text "-2"))).1 = .ok none := by decide +kernel
  obtain ⟨-, hlaws⟩ := replies_lawful (v := .absent) rfl ops
  rw [hrun] at hlaws
  obtain ⟨-, hfails⟩ := (hlaws (.decrement (.text "x"))).1 _ hfail
  exact ⟨rfl, hrun, hfail, hfails, hsuccess,
    (hlaws (.multiply (.text "-2"))).2.1 none hsuccess (by simp [Op.argument])⟩

end

end Cell

end Stencil
