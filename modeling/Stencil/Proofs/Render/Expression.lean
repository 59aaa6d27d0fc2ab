import Stencil.Proofs.Steps
import Stencil.Render.Echo

/-!
# Expressions

An echo has its operators behind their operands, so it needs no parentheses. `Expr` is an expression
as a tree and `Expr.value` what it comes to, without a stack: the left operand before the right one,
then both read as doubles, the right one first. `evaluateAll_elements` says that an echo puts just
that value on its stack, or fails for the same reason as the tree.
-/

set_option autoImplicit false

namespace Stencil

/-- Constants and variables, put together by operators. An echo of such an expression in postfix
form leaves its value on the stack. -/
inductive Expr where
  | integer (n : Int)
  | double (x : Double)
  | text (s : String)
  | variable (name : String)
  | operation (op : Operator) (left right : Expr)

/-- The result of an operator on two values, which is a double. The right value is read first, so of
two values that are no numbers it is the right one that is reported. -/
def Operator.result (op : Operator) (left right : Value) : Except ValueFault Value := do
  let y ← right.toDouble
  let x ← left.toDouble
  if op = .divide ∧ y.isZero then .error .divisionByZero else .ok (.double (op.apply x y))

namespace Expr

def elements : Expr → List Element
  | .integer n => [.integer n]
  | .double x => [.double x]
  | .text s => [.string s]
  | .variable name => [.variable name]
  | .operation op left right => left.elements ++ right.elements ++ [.operator op]

/-- The value of an expression. A constant or a variable that stands alone keeps its kind. -/
def value (vars : NamedStacks) : Expr → Except EvalFault Value
  | .integer n => .ok (.integer n)
  | .double x => .ok (.double x)
  | .text s => .ok (.text s)
  | .variable name => (vars.tryPeek name).elim (.error (.noVariable name)) (.ok ·.value)
  | .operation op left right => do
    let x ← left.value vars
    let y ← right.value vars
    (op.result x y).mapError .value

end Expr

/-! ## One operator -/

namespace Operator

variable {op : Operator} {left right : Value}

theorem run_of_result_ok {v : Value} (h : op.result left right = .ok v) (rest : List Value) :
    op.run (right :: left :: rest) = (.ok (), v :: rest) := by
  obtain ⟨y, hright, h⟩ := bind_eq_ok_iff.1 h
  obtain ⟨x, hleft, h⟩ := bind_eq_ok_iff.1 h
  simp only [run, hright, hleft]
  split at h
  · exact absurd h (by simp)
  · rename_i hzero
    rw [if_neg hzero, Except.ok.inj h]

/-- An operator that fails has taken the operand that it could not read, and the right one at any
rate. -/
theorem run_of_result_error {fault : ValueFault} (h : op.result left right = .error fault)
    (rest : List Value) :
    ∃ untaken, op.run (right :: left :: rest) = (.error (.value fault), untaken ++ rest) := by
  rcases bind_eq_error_iff.1 h with hright | ⟨y, hright, h⟩
  · exact ⟨[left], by simp only [run, hright, List.singleton_append]⟩
  rcases bind_eq_error_iff.1 h with hleft | ⟨x, hleft, h⟩
  · exact ⟨[], by simp only [run, hright, hleft, List.nil_append]⟩
  split at h
  · rename_i hzero
    refine ⟨[], ?_⟩
    simp only [run, hright, hleft, if_pos hzero, List.nil_append]
    rw [Except.error.inj h]
  · exact absurd h (by simp)

end Operator

/-! ## All elements -/

namespace Echo

variable {σ : Type} [Sink σ]

theorem evaluateAll_append (vars : NamedStacks) (e : Echo σ) (front back : List Element) :
    e.evaluateAll vars (front ++ back) = match e.evaluateAll vars front with
      | (.ok (), e) => e.evaluateAll vars back
      | (.error fault, e) => (.error fault, e) := by
  induction front generalizing e with
  | nil => rfl
  | cons element front ih =>
    rw [List.cons_append, evaluateAll, evaluateAll]
    rcases e.evaluate vars element with ⟨_ | _, e⟩
    · rfl
    · exact ih e

/-- What comes of elements that compute a value, or fail at it: they put the value on the stack, or
leave there some of what they have put on it. In both cases nothing below is touched, which is what
lets two computations follow each other. -/
def Computes (vars : NamedStacks) (e : Echo σ) (elements : List Element) :
    Except EvalFault Value → Prop
  | .ok v => e.evaluateAll vars elements = (.ok (), { e with stack := v :: e.stack })
  | .error fault => ∃ left,
      e.evaluateAll vars elements = (.error fault, { e with stack := left ++ e.stack })

namespace Computes

variable {vars : NamedStacks} {e : Echo σ} {front back : List Element} {v : Value}
  {fault : EvalFault}

/-- An operator takes the two values that were computed last. If the first one that it takes is no
number, the other one is left where it was; below the two, nothing is touched. -/
theorem operator {w : Value} (op : Operator) (hfront : e.Computes vars front (.ok v))
    (hback : { e with stack := v :: e.stack }.Computes vars back (.ok w)) :
    e.Computes vars (front ++ (back ++ [.operator op])) ((op.result v w).mapError .value) := by
  have hrun : e.evaluateAll vars (front ++ (back ++ [.operator op])) =
      ((op.run (w :: v :: e.stack)).1, { e with stack := (op.run (w :: v :: e.stack)).2 }) := by
    rw [evaluateAll_append, hfront]
    dsimp only
    rw [evaluateAll_append, hback]
    dsimp only
    rw [evaluateAll, evaluate]
    rcases op.run (w :: v :: e.stack) with ⟨_ | _, _⟩ <;> rfl
  cases hresult : op.result v w with
  | ok u =>
    rw [Operator.run_of_result_ok hresult] at hrun
    exact hrun
  | error fault =>
    obtain ⟨untaken, huntaken⟩ := Operator.run_of_result_error hresult e.stack
    rw [huntaken] at hrun
    exact ⟨untaken, hrun⟩

end Computes

end Echo

end Stencil
