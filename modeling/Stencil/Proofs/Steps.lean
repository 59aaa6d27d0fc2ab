/-!
# Steps that can fail

Steps that follow one another succeed if all of them do, and fail as the first one that fails. A
step can also be to look for something and to fail if it is not there.
-/

set_option autoImplicit false

namespace Stencil

variable {ε α β : Type} {x : Except ε α} {e : ε} {b : β}

theorem bind_eq_ok_iff {f : α → Except ε β} :
    (x >>= f) = .ok b ↔ ∃ a, x = .ok a ∧ f a = .ok b := by
  cases x with
  | error e => simp [bind, Except.bind]
  | ok a => simp [bind, Except.bind]

theorem bind_eq_error_iff {f : α → Except ε β} :
    (x >>= f) = .error e ↔ x = .error e ∨ ∃ a, x = .ok a ∧ f a = .error e := by
  cases x with
  | error e' => simp [bind, Except.bind]
  | ok a => simp [bind, Except.bind]

theorem map_eq_ok_iff {g : α → β} : x.map g = .ok b ↔ ∃ a, x = .ok a ∧ g a = b := by
  cases x with
  | error e => simp [Except.map]
  | ok a => simp [Except.map]

theorem map_eq_error_iff {g : α → β} : x.map g = .error e ↔ x = .error e := by
  cases x with
  | error e' => simp [Except.map]
  | ok a => simp [Except.map]

/-! ## Something that may be missing -/

variable {o : Option α}

theorem exists_of_elim_eq_ok {f : α → Except ε β} (h : o.elim (.error e) f = .ok b) :
    ∃ a, o = some a ∧ f a = .ok b := by
  cases o with
  | none => exact absurd h (by simp)
  | some a => exact ⟨a, rfl, h⟩

theorem eq_none_of_elim_eq_error {g : α → β} {e' : ε}
    (h : o.elim (.error e) (fun a => .ok (g a)) = Except.error e') : o = none ∧ e = e' := by
  cases o with
  | none => exact ⟨rfl, Except.error.inj h⟩
  | some a => exact absurd h (by simp)

end Stencil
