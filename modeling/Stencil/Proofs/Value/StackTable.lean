import Mathlib.Logic.Function.Basic
import Stencil.Value.NamedStacks

/-!
# The table of stacks under names

Beside the table of stacks stands the plainest thing that it could be, a function from names to
lists. A table `Represents` a function if it has the same under every name and lists no empty stack.
The second part is what makes the two ways to ask for an empty stack agree, whether its name is
listed and whether it has a top. Putting on and taking off keep both parts, whatever it is that
stands on the stacks.
-/

set_option autoImplicit false

namespace Stencil

namespace Dictionary

variable {α : Type} {d : Dictionary α} {name : String} {a : α} {e : String × α}

theorem mem_put (h : e ∈ (d.put name a).entries) : e.2 = a ∨ e ∈ d.entries := by
  obtain ⟨entries⟩ := d
  replace h : e ∈ putEntry name a entries := h
  show e.2 = a ∨ e ∈ entries
  induction entries with
  | nil =>
    obtain rfl : e = (name, a) := by simpa [putEntry] using h
    exact .inl rfl
  | cons first rest ih =>
    rw [putEntry] at h
    split at h
    · rcases List.mem_cons.1 h with rfl | hrest
      · exact .inl rfl
      · exact .inr (List.mem_cons_of_mem _ hrest)
    · rcases List.mem_cons.1 h with rfl | hrest
      · exact .inr List.mem_cons_self
      · rcases ih hrest with heq | hmem
        · exact .inl heq
        · exact .inr (List.mem_cons_of_mem _ hmem)

theorem mem_erase (h : e ∈ (d.erase name).entries) : e ∈ d.entries := (List.mem_filter.1 h).1

theorem mem_of_get? (h : d.get? name = some a) : (name, a) ∈ d.entries := by
  obtain ⟨entries⟩ := d
  replace h : entries.lookup name = some a := h
  show (name, a) ∈ entries
  induction entries with
  | nil => exact absurd h (by simp)
  | cons first rest ih =>
    obtain ⟨k, b⟩ := first
    by_cases hk : name = k
    · subst hk
      obtain rfl : b = a := by simpa using h
      exact List.mem_cons_self
    · rw [List.lookup_cons, beq_eq_false_iff_ne.2 hk] at h
      exact List.mem_cons_of_mem _ (ih h)

theorem contains_eq (d : Dictionary α) (name : String) :
    d.contains name = (d.get? name).isSome := by
  obtain ⟨entries⟩ := d
  show entries.any (·.1 == name) = (entries.lookup name).isSome
  induction entries with
  | nil => rfl
  | cons first rest ih =>
    obtain ⟨k, b⟩ := first
    by_cases hk : k = name
    · simp [hk]
    · rw [List.any_cons, List.lookup_cons, beq_eq_false_iff_ne.2 hk,
        beq_eq_false_iff_ne.2 (Ne.symm hk), Bool.false_or, ih]

end Dictionary

namespace NamedStacks

variable {α : Type}

/-- A table of stacks that has what a function has under every name, and lists no empty stack. The
table alone could list one, for nothing in its type forbids it. -/
structure Represents (s : NamedStacks α) (f : String → List α) : Prop where
  cells_eq : ∀ name, s.cells name = f name
  ne_nil : ∀ e ∈ s.table.entries, e.2 ≠ []

variable {s : NamedStacks α} {f : String → List α} {name : String} {a : α} {rest : List α}

namespace Represents

theorem empty : (NamedStacks.empty : NamedStacks α).Represents fun _ => [] where
  cells_eq := cells_empty
  ne_nil := fun e he => absurd he (by simp [NamedStacks.empty, Dictionary.empty])

theorem setCells (h : s.Represents f) (name : String) (cells : List α) :
    (s.setCells name cells).Represents (Function.update f name cells) where
  cells_eq := by
    intro k
    rw [cells_setCells, Function.update_apply, h.cells_eq]
  ne_nil := by
    intro e he
    unfold NamedStacks.setCells at he
    split at he
    · exact h.ne_nil e (Dictionary.mem_erase he)
    · rename_i hcells
      rcases Dictionary.mem_put he with heq | hmem
      · rw [heq]
        simpa using hcells
      · exact h.ne_nil e hmem

theorem of_cells (h : s.Represents f) {list : List α} (hlist : f name = list) :
    s.Represents (Function.update f name list) := by
  rw [← hlist, Function.update_eq_self]
  exact h

theorem push (h : s.Represents f) (name : String) (a : α) :
    (s.push name a).Represents (Function.update f name (a :: f name)) := by
  rw [NamedStacks.push, h.cells_eq]
  exact h.setCells name (a :: f name)

theorem tryPeek_eq (h : s.Represents f) (name : String) : s.tryPeek name = (f name).head? := by
  rw [NamedStacks.tryPeek, h.cells_eq]

theorem tryPop_of_nil (h : s.Represents f) (hlist : f name = []) : s.tryPop name = none := by
  rw [NamedStacks.tryPop, h.cells_eq, hlist]

theorem tryPop_of_cons (h : s.Represents f) (hlist : f name = a :: rest) :
    ∃ s', s.tryPop name = some (a, s') ∧ s'.Represents (Function.update f name rest) := by
  refine ⟨s.setCells name rest, ?_, h.setCells name rest⟩
  rw [NamedStacks.tryPop, h.cells_eq, hlist]

/-- A name is listed exactly if something stands under it. This is what the second part of
`Represents` is for: an empty stack that is listed would not count as empty here. -/
theorem isEmpty_eq (h : s.Represents f) (name : String) : s.isEmpty name = (f name).isEmpty := by
  rw [NamedStacks.isEmpty, Dictionary.contains_eq, ← h.cells_eq, cells]
  cases hget : s.table.get? name with
  | none => rfl
  | some cells =>
    have hne : cells ≠ [] := h.ne_nil _ (Dictionary.mem_of_get? hget)
    simpa using hne

theorem isEmpty_iff (h : s.Represents f) (name : String) :
    s.isEmpty name = true ↔ s.cells name = [] := by
  rw [h.isEmpty_eq, h.cells_eq]
  exact List.isEmpty_iff

end Represents

/-! ## The ways to find that nothing is there -/

theorem tryPeek_eq_none_iff : s.tryPeek name = none ↔ s.cells name = [] := List.head?_eq_none_iff

theorem peek_of_tryPeek (h : s.tryPeek name = some a) : s.peek name = .ok a := by
  rw [peek, h]
  rfl

theorem peek_of_nil (h : s.tryPeek name = none) : s.peek name = .error (.noStack name) := by
  rw [peek, h]
  rfl

theorem pop_of_tryPop {s' : NamedStacks α} (h : s.tryPop name = some (a, s')) :
    s.pop name = .ok (a, s') := by
  rw [pop, h]
  rfl

theorem pop_of_nil (h : s.tryPop name = none) : s.pop name = .error (.noStack name) := by
  rw [pop, h]
  rfl

theorem peek_eq_noStack_iff : s.peek name = .error (.noStack name) ↔ s.cells name = [] := by
  rw [← tryPeek_eq_none_iff]
  refine ⟨fun h => ?_, peek_of_nil⟩
  cases hpeek : s.tryPeek name with
  | none => rfl
  | some a =>
    rw [peek_of_tryPeek hpeek] at h
    exact absurd h (by simp)

theorem pop_eq_noStack_iff : s.pop name = .error (.noStack name) ↔ s.cells name = [] := by
  rw [pop, tryPop]
  cases s.cells name with
  | nil => simp
  | cons a rest => simp

end NamedStacks

end Stencil
