import Stencil.Builtin

/-!
# What operations do to the stack

A built-in operation takes at most two values off the stack and puts at most two on, and below these
the stack stays as it is. What it puts on it has taken off before, unless it is a double or a text:
no operation makes a whole number or a value of an unknown kind. An operation that fails puts
nothing on.
-/

set_option autoImplicit false

namespace Stencil

/-- A double or a text, which are the values that operations make. Whole numbers get onto a stack
only from constants and from loops, and are handed on as they are. -/
def Value.IsMade : Value → Prop
  | .double _ | .text _ => True
  | _ => False

/-- Stacks of which the second has at most two values in place of at most two at the top of the
first. Two is what the operation with most operands takes; what an operation does not make it has
taken, which is why what is true of all values on a stack can be carried along (`forall_mem`). -/
inductive Exchanged : List Value → List Value → Prop
  | intro (taken added rest : List Value) (htaken : taken.length ≤ 2) (hadded : added.length ≤ 2)
      (hfrom : ∀ v ∈ added, v ∈ taken ∨ v.IsMade) : Exchanged (taken ++ rest) (added ++ rest)

namespace Exchanged

variable {before after : List Value}

/-- What is true of the values on a stack and of all that operations make stays true. No operation
looks at other values, so this is all that is ever needed to know what a stack can hold. -/
theorem forall_mem {P : Value → Prop} (h : Exchanged before after) (hmade : ∀ v, v.IsMade → P v)
    (hall : ∀ v ∈ before, P v) : ∀ v ∈ after, P v := by
  obtain ⟨taken, added, rest, -, -, hfrom⟩ := h
  intro v hv
  rcases List.mem_append.1 hv with hv | hv
  · rcases hfrom v hv with htaken | hv
    · exact hall v (List.mem_append_left _ htaken)
    · exact hmade v hv
  · exact hall v (List.mem_append_right _ hv)

theorem refl (stack : List Value) : Exchanged stack stack :=
  .intro [] [] stack (by simp) (by simp) (by simp)

theorem take_one (v : Value) (rest : List Value) : Exchanged (v :: rest) rest :=
  .intro [v] [] rest (by simp) (by simp) (by simp)

theorem take_two (v w : Value) (rest : List Value) : Exchanged (v :: w :: rest) rest :=
  .intro [v, w] [] rest (by simp) (by simp) (by simp)

theorem tail (stack : List Value) : Exchanged stack stack.tail := by
  cases stack with
  | nil => exact .refl []
  | cons v rest => exact .take_one v rest

theorem make_of_two (v w : Value) (rest : List Value) {x : Value} (hx : x.IsMade) :
    Exchanged (v :: w :: rest) (x :: rest) :=
  .intro [v, w] [x] rest (by simp) (by simp) (by simp [hx])

end Exchanged

namespace Builtin

def left : Except Failure (List Value) → List Value
  | .ok stack => stack
  | .error (_, stack) => stack

/-! ## Taking operands -/

theorem read_ok {α : Type} (rest : List Value) (a : α) : read rest (.ok a) = .ok a := rfl

/-- A text is taken, or it is missing and what stands in its place is taken. A value of another kind
does not go back on the stack. -/
theorem popText_cases (stack : List Value) :
    (∃ s rest, stack = .text s :: rest ∧ popText stack = .ok (s, rest)) ∨
      ∃ fault left, popText stack = .error (fault, left) ∧ left = stack.tail := by
  cases stack with
  | nil => exact .inr ⟨_, _, rfl, rfl⟩
  | cons v rest =>
    cases v with
    | text s => exact .inl ⟨s, rest, rfl, rfl⟩
    | _ => exact .inr ⟨_, _, rfl, rfl⟩

/-- A value and a name under it are taken, or one of them is missing. The name is looked for second,
so the value is gone by then. -/
theorem popEntry_cases (stack : List Value) :
    (∃ v name value rest, stack = v :: .text name :: rest ∧
        popEntry stack = .ok (name, value, rest)) ∨
      ∃ fault left, popEntry stack = .error (fault, left) ∧ Exchanged stack left := by
  cases stack with
  | nil => exact .inr ⟨_, _, rfl, .refl []⟩
  | cons v rest =>
    simp only [popEntry, pop, bind, Except.bind]
    cases v.format with
    | error fault => exact .inr ⟨_, _, rfl, .take_one v rest⟩
    | ok value =>
      rw [read_ok]
      dsimp only
      rcases popText_cases rest with ⟨name, rest, rfl, hpop⟩ | ⟨fault, left, hpop, rfl⟩
      · rw [hpop]
        exact .inl ⟨v, name, value, rest, rfl, rfl⟩
      · rw [hpop]
        refine .inr ⟨_, _, rfl, ?_⟩
        cases rest with
        | nil => exact .take_one v []
        | cons w rest => exact .take_two v w rest

/-! ## Operations on operands alone -/

theorem exchanged_sineOf (stack : List Value) : Exchanged stack (left (sineOf stack)) := by
  cases stack with
  | nil => exact .refl []
  | cons v rest =>
    simp only [sineOf, pop, bind, Except.bind]
    cases v.toDouble with
    | error fault => exact .take_one v rest
    | ok x =>
      rw [read_ok]
      dsimp only
      cases x.sineOfDegrees? with
      | none => exact .take_one v rest
      | some y => exact .intro [v] [.double y] rest (by simp) (by simp) (by simp [Value.IsMade])

theorem exchanged_formatNumberOf (stack : List Value) :
    Exchanged stack (left (formatNumberOf stack)) := by
  rcases popText_cases stack with ⟨pattern, rest, rfl, hpop⟩ | ⟨fault, left, hpop, rfl⟩
  · cases rest with
    | nil => exact .take_one _ []
    | cons v rest =>
      simp only [formatNumberOf, hpop, pop, bind, Except.bind]
      cases v.toDouble with
      | error fault => exact .take_two _ v rest
      | ok x =>
        rw [read_ok]
        dsimp only
        cases formatDecimal pattern x with
        | error fault => exact .take_two _ v rest
        | ok text =>
          dsimp only
          cases (Value.text text).toDouble with
          | error fault => exact .take_two _ v rest
          | ok y => exact .make_of_two _ v rest trivial
  · simp only [formatNumberOf, hpop, bind, Except.bind]
    exact .tail stack

theorem exchanged_duplicateOf (stack : List Value) :
    Exchanged stack (left (duplicateOf stack)) := by
  cases stack with
  | nil => exact .refl []
  | cons v rest => exact .intro [v] [v, v] rest (by simp) (by simp) (by simp)

theorem exchanged_swapOf (stack : List Value) : Exchanged stack (left (swapOf stack)) := by
  match stack with
  | [] => exact .refl []
  | [v] => exact .take_one v []
  | v :: w :: rest => exact .intro [v, w] [w, v] rest (by simp) (by simp) (by simp)

/-! ## All operations -/

section

variable {σ : Type} [Sink σ]

def leftByCall (op : Builtin) (stack : List Value) (sink : σ) : List Value :=
  left ((op.call stack sink).map Prod.fst)

omit [Sink σ] in
theorem left_onStack (f : List Value → Except Failure (List Value)) (stack : List Value)
    (sink : σ) : left ((onStack f stack sink).map Prod.fst) = left (f stack) := by
  unfold onStack
  cases f stack <;> rfl

theorem exchanged_call (op : Builtin) (stack : List Value) (sink : σ) :
    Exchanged stack (op.leftByCall stack sink) := by
  unfold leftByCall
  cases op with
  | sine =>
    rw [call, left_onStack]
    exact exchanged_sineOf stack
  | formatNumber =>
    rw [call, left_onStack]
    exact exchanged_formatNumberOf stack
  | duplicate =>
    rw [call, left_onStack]
    exact exchanged_duplicateOf stack
  | swap =>
    rw [call, left_onStack]
    exact exchanged_swapOf stack
  | setMimeType =>
    rcases popText_cases stack with ⟨s, rest, rfl, hpop⟩ | ⟨fault, left, hpop, rfl⟩
    · -- Whether the sink takes the type makes no difference to the stack.
      simp only [call, hpop, bind, Except.bind]
      cases Sink.setMimeType sink s <;> exact .take_one _ rest
    · simp only [call, hpop, bind, Except.bind]
      exact .tail stack
  | getParameter scope =>
    rcases popEntry_cases stack with ⟨v, name, value, rest, rfl, hpop⟩ | ⟨fault, left, hpop, hleft⟩
    · simp only [call, hpop, bind, Except.bind]
      exact .make_of_two v _ rest trivial
    · simp only [call, hpop, bind, Except.bind]
      exact hleft
  | setParameter scope =>
    rcases popEntry_cases stack with ⟨v, name, value, rest, rfl, hpop⟩ | ⟨fault, left, hpop, hleft⟩
    · simp only [call, hpop, bind, Except.bind]
      exact .take_two v _ rest
    · simp only [call, hpop, bind, Except.bind]
      exact hleft
  | deleteParameter scope =>
    rcases popText_cases stack with ⟨s, rest, rfl, hpop⟩ | ⟨fault, left, hpop, rfl⟩
    · simp only [call, hpop, bind, Except.bind]
      exact .take_one _ rest
    · simp only [call, hpop, bind, Except.bind]
      exact .tail stack

end

end Builtin

end Stencil
