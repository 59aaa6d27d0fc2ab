import Stencil.Proofs.Builtin.Exchange
import Stencil.Proofs.Builtin.Plan
import Stencil.Proofs.Render.Concatenation

/-!
# What lies under the operands

Elements look at no more of the stack than they take off it. So an evaluation that never lacks an
operand (`Echo.Supplied`) goes the same way whatever lies under the stack that it starts with, and
leaves that there, also if it fails (`Echo.evaluateAll_local`).

A built-in operation takes its operands before it turns to the sink, so that its locality is that
of its plan (`Builtin.plan_append`).
-/

set_option autoImplicit false

namespace Stencil

/-! ## Operations -/

namespace Builtin

/-- A result with more values under the stack that it leaves, be it a success, for which `put` puts
them there, or a failure. -/
def onTopOf {α : Type} (below : List Value) (put : α → α) : Except Failure α → Except Failure α
  | .ok a => .ok (put a)
  | .error (fault, left) => .error (fault, left ++ below)

def IsShort {α : Type} (r : Except Failure α) : Prop := ∃ left, r = .error (.noOperand, left)

section

variable {stack : List Value} (below : List Value)

theorem popText_append (h : ¬ IsShort (popText stack)) :
    popText (stack ++ below) = onTopOf below (Prod.map id (· ++ below)) (popText stack) := by
  cases stack with
  | nil => exact absurd ⟨[], rfl⟩ h
  | cons v rest => cases v <;> rfl

theorem popEntry_append (h : ¬ IsShort (popEntry stack)) :
    popEntry (stack ++ below) =
      onTopOf below (Prod.map id (Prod.map id (· ++ below))) (popEntry stack) := by
  cases stack with
  | nil => exact absurd ⟨[], rfl⟩ h
  | cons v rest =>
    simp only [List.cons_append, popEntry, pop, bind, Except.bind] at h ⊢
    cases hformat : v.format with
    | error fault => rfl
    | ok value =>
      rw [hformat] at h
      simp only [read_ok] at h ⊢
      cases rest with
      | nil => exact absurd ⟨[], rfl⟩ h
      | cons w rest => cases w <;> rfl

theorem sineOf_append (h : ¬ IsShort (sineOf stack)) :
    sineOf (stack ++ below) = onTopOf below (· ++ below) (sineOf stack) := by
  cases stack with
  | nil => exact absurd ⟨[], rfl⟩ h
  | cons v rest =>
    simp only [List.cons_append, sineOf, pop, bind, Except.bind]
    cases v.toDouble with
    | error fault => rfl
    | ok x =>
      simp only [read_ok]
      cases x.sineOfDegrees? <;> rfl

theorem formatNumberOf_append (h : ¬ IsShort (formatNumberOf stack)) :
    formatNumberOf (stack ++ below) = onTopOf below (· ++ below) (formatNumberOf stack) := by
  rcases popText_cases stack with ⟨pattern, rest, rfl, hpop⟩ | ⟨fault, left, hpop, -⟩
  · cases rest with
    | nil => exact absurd ⟨[], rfl⟩ h
    | cons v rest =>
      have hdeep : popText ((.text pattern :: v :: rest) ++ below) =
          .ok (pattern, v :: (rest ++ below)) := rfl
      simp only [formatNumberOf, hdeep, hpop, pop, bind, Except.bind]
      cases v.toDouble with
      | error fault => rfl
      | ok x =>
        simp only [read_ok]
        cases formatDecimal pattern x with
        | error fault => rfl
        | ok text =>
          dsimp only
          cases (Value.text text).toDouble <;> rfl
  · have hshort : ¬ IsShort (popText stack) := by
      rintro ⟨taken, htaken⟩
      refine h ⟨taken, ?_⟩
      simp only [formatNumberOf, htaken, bind, Except.bind]
    simp only [formatNumberOf, popText_append below hshort, hpop, onTopOf, bind, Except.bind]

theorem duplicateOf_append (h : ¬ IsShort (duplicateOf stack)) :
    duplicateOf (stack ++ below) = onTopOf below (· ++ below) (duplicateOf stack) := by
  cases stack with
  | nil => exact absurd ⟨[], rfl⟩ h
  | cons v rest => rfl

theorem swapOf_append (h : ¬ IsShort (swapOf stack)) :
    swapOf (stack ++ below) = onTopOf below (· ++ below) (swapOf stack) := by
  match stack with
  | [] => exact absurd ⟨[], rfl⟩ h
  | [_] => exact absurd ⟨[], rfl⟩ h
  | _ :: _ :: _ => rfl

end

def Plan.onTopOf (below : List Value) : Plan → Plan
  | .leave result => .leave (Builtin.onTopOf below (· ++ below) result)
  | .setMimeType text rest => .setMimeType text (rest ++ below)
  | .read scope name value rest => .read scope name value (rest ++ below)
  | .edit scope e rest => .edit scope e (rest ++ below)

variable {σ : Type} [Sink σ]

theorem Plan.perform_onTopOf (p : Plan) (below : List Value) (s : σ) :
    (p.onTopOf below).perform s = Builtin.onTopOf below (Prod.map (· ++ below) id) (p.perform s) := by
  cases p with
  | leave result => cases result <;> rfl
  | setMimeType text rest =>
    rw [Plan.onTopOf, perform, perform]
    cases Sink.setMimeType s text <;> rfl
  | read scope name value rest => rfl
  | edit scope e rest => rfl

theorem plan_append (op : Builtin) {stack : List Value} (below : List Value)
    (h : ∀ left, op.plan stack ≠ .leave (.error (.noOperand, left))) :
    op.plan (stack ++ below) = (op.plan stack).onTopOf below := by
  cases op with
  | sine =>
    exact congrArg Plan.leave (sineOf_append below fun ⟨left, hleft⟩ => h left (congrArg _ hleft))
  | formatNumber =>
    exact congrArg Plan.leave
      (formatNumberOf_append below fun ⟨left, hleft⟩ => h left (congrArg _ hleft))
  | duplicate =>
    exact congrArg Plan.leave
      (duplicateOf_append below fun ⟨left, hleft⟩ => h left (congrArg _ hleft))
  | swap =>
    exact congrArg Plan.leave (swapOf_append below fun ⟨left, hleft⟩ => h left (congrArg _ hleft))
  | setMimeType | deleteParameter scope =>
    have hshort : ¬ IsShort (popText stack) := by
      rintro ⟨left, hleft⟩
      exact h left (by rw [plan, hleft])
    simp only [plan, popText_append below hshort]
    cases popText stack <;> rfl
  | getParameter scope | setParameter scope =>
    have hshort : ¬ IsShort (popEntry stack) := by
      rintro ⟨left, hleft⟩
      exact h left (by rw [plan, hleft])
    simp only [plan, popEntry_append below hshort]
    cases popEntry stack <;> rfl

/-- An operation that finds its operands does the same with more values under them. Those that find
too little behave otherwise, for they take what there is and leave it at that. -/
theorem call_append (op : Builtin) {stack : List Value} (below : List Value) {s : σ}
    (h : ¬ IsShort (op.call stack s)) :
    op.call (stack ++ below) s =
      onTopOf below (Prod.map (· ++ below) id) (op.call stack s) := by
  rw [op.call_eq_perform, op.call_eq_perform, plan_append op below, Plan.perform_onTopOf]
  intro left hplan
  refine h ⟨left, ?_⟩
  rw [op.call_eq_perform, hplan]
  rfl

end Builtin

theorem Operator.run_append (op : Operator) {stack : List Value} (below : List Value)
    (h : ∀ count, (op.run stack).1 ≠ .error (.underflow op count)) :
    op.run (stack ++ below) = Prod.map id (· ++ below) (op.run stack) := by
  match stack with
  | [] => exact absurd rfl (h 0)
  | [_] => exact absurd rfl (h 1)
  | r :: l :: rest =>
    simp only [List.cons_append, run]
    cases r.toDouble with
    | error fault => rfl
    | ok right =>
      cases l.toDouble with
      | error fault => rfl
      | ok left =>
        dsimp only
        split <;> rfl

/-! ## Elements -/

namespace Echo

variable {σ : Type}

def onTopOf (below : List Value) (e : Echo σ) : Echo σ := { e with stack := e.stack ++ below }

@[simp] theorem onTopOf_stack (below : List Value) (e : Echo σ) :
    (e.onTopOf below).stack = e.stack ++ below := rfl

@[simp] theorem onTopOf_sink (below : List Value) (e : Echo σ) :
    (e.onTopOf below).sink = e.sink := rfl

variable [Sink σ] {vars : NamedStacks} {e : Echo σ} {element : Element} {elements : List Element}

/-- An evaluation that never lacks an operand: no operator ends it for want of one, and it notes no
operation that met an empty stack. -/
structure Supplied (vars : NamedStacks) (e : Echo σ) (elements : List Element) : Prop where
  answer : ∀ op count, (e.evaluateAll vars elements).1 ≠ .error (.underflow op count)
  log : ∃ added, (e.evaluateAll vars elements).2.log = added ++ e.log ∧
    ∀ op, LogRecord.operationFailed op .noOperand ∉ added

theorem call_onTopOf (op : Builtin) (below : List Value)
    (hlog : (e.call op).log ≠ .operationFailed op .noOperand :: e.log) :
    (e.onTopOf below).call op = (e.call op).onTopOf below := by
  have hfound : ¬ Builtin.IsShort (op.call e.stack e.sink) := by
    rintro ⟨left, hleft⟩
    exact hlog (by rw [call, hleft])
  have hcall := op.call_append below hfound
  unfold call
  rw [onTopOf_stack, onTopOf_sink, hcall]
  cases op.call e.stack e.sink <;> rfl

theorem evaluate_onTopOf (below : List Value)
    (hanswer : ∀ op count, (e.evaluate vars element).1 ≠ .error (.underflow op count))
    (hlog : ∀ op, (e.evaluate vars element).2.log ≠ .operationFailed op .noOperand :: e.log) :
    (e.onTopOf below).evaluate vars element =
      Prod.map id (onTopOf below) (e.evaluate vars element) := by
  cases element with
  | integer n | double x | string s => rfl
  | «variable» name =>
    simp only [evaluate]
    cases vars.tryPeek name <;> rfl
  | function name =>
    simp only [evaluate] at hlog ⊢
    cases hname : Builtin.ofName? name with
    | none => rfl
    | some op =>
      rw [hname] at hlog
      exact congrArg (Prod.mk (Except.ok ())) (call_onTopOf op below (hlog op))
  | operator op =>
    have hrun := op.run_append below (hanswer op)
    simp only [evaluate]
    rw [onTopOf_stack, hrun]
    rfl

/-! ## All elements -/

theorem exists_log_evaluate (vars : NamedStacks) (e : Echo σ) (element : Element) :
    ∃ added, (e.evaluate vars element).2.log = added ++ e.log :=
  ⟨_, congrArg (fun r => r.2.log) (evaluate_after vars e.log ⟨e.stack, e.sink, []⟩ element)⟩

theorem exists_log_evaluateAll (vars : NamedStacks) (e : Echo σ) (elements : List Element) :
    ∃ added, (e.evaluateAll vars elements).2.log = added ++ e.log := by
  induction elements generalizing e with
  | nil => exact ⟨[], rfl⟩
  | cons element rest ih =>
    obtain ⟨first, hfirst⟩ := exists_log_evaluate vars e element
    rw [evaluateAll]
    rcases heval : e.evaluate vars element with ⟨_ | _, after⟩ <;> rw [heval] at hfirst
    · exact ⟨first, hfirst⟩
    · obtain ⟨more, hmore⟩ := ih after
      exact ⟨more ++ first, by rw [List.append_assoc, ← hfirst, ← hmore]⟩

theorem Supplied.cons (h : e.Supplied vars (element :: elements)) :
    (∀ op count, (e.evaluate vars element).1 ≠ .error (.underflow op count)) ∧
      (∀ op, (e.evaluate vars element).2.log ≠ .operationFailed op .noOperand :: e.log) ∧
      ∀ after, e.evaluate vars element = (.ok (), after) → after.Supplied vars elements := by
  obtain ⟨hanswer, added, hadded, hnone⟩ := h
  obtain ⟨first, hfirst⟩ := exists_log_evaluate vars e element
  -- What the first element notes is noted by the whole evaluation.
  have hsub : first ⊆ added := by
    rw [evaluateAll] at hadded
    rcases heval : e.evaluate vars element with ⟨_ | _, after⟩ <;> rw [heval] at hadded hfirst
    · rw [List.append_cancel_right (hadded.symm.trans hfirst)]
      exact List.Subset.refl first
    · obtain ⟨more, hmore⟩ := exists_log_evaluateAll vars after elements
      rw [hfirst, ← List.append_assoc] at hmore
      rw [List.append_cancel_right (hadded.symm.trans hmore)]
      exact List.subset_append_right more first
  refine ⟨?_, ?_, ?_⟩
  · intro op count hshort
    refine hanswer op count ?_
    rw [evaluateAll]
    rcases heval : e.evaluate vars element with ⟨_ | _, after⟩ <;> rw [heval] at hshort
    · exact hshort
    · exact absurd hshort (by simp)
  · intro op hshort
    rw [hshort, ← List.singleton_append] at hfirst
    refine hnone op (hsub ?_)
    rw [← List.append_cancel_right hfirst]
    exact List.mem_singleton_self _
  · intro after heval
    obtain ⟨more, hmore⟩ := exists_log_evaluateAll vars after elements
    rw [evaluateAll, heval] at hanswer hadded
    rw [heval] at hfirst
    refine ⟨hanswer, more, hmore, fun op hmem => hnone op ?_⟩
    rw [hfirst, ← List.append_assoc] at hmore
    rw [List.append_cancel_right (hadded.symm.trans hmore)]
    exact List.mem_append_left first hmem

theorem evaluateAll_onTopOf (below : List Value) (h : e.Supplied vars elements) :
    (e.onTopOf below).evaluateAll vars elements =
      Prod.map id (onTopOf below) (e.evaluateAll vars elements) := by
  induction elements generalizing e with
  | nil => rfl
  | cons element rest ih =>
    obtain ⟨hanswer, hlog, htail⟩ := h.cons
    rw [evaluateAll, evaluateAll, evaluate_onTopOf below hanswer hlog]
    cases heval : e.evaluate vars element with
    | mk answer after =>
      cases answer with
      | error fault => rfl
      | ok => exact ih (htail after heval)

/-- An evaluation that lacks no operand goes the same way on top of any other values: it answers the
same, notes the same, does the same to the sink and leaves the same, with those values under it. -/
theorem evaluateAll_local (h : e.Supplied vars elements) (below : List Value) :
    { e with stack := e.stack ++ below }.evaluateAll vars elements =
      ((e.evaluateAll vars elements).1,
        { (e.evaluateAll vars elements).2 with
          stack := (e.evaluateAll vars elements).2.stack ++ below }) :=
  evaluateAll_onTopOf below h

/-- An operation that fails takes a whole number away, and the one behind it still finds its
operand.
-/
theorem evaluateAll_local_failure :
    let e : Echo TextSink := ⟨[.text "n"], .start (.start .empty .empty) "UTF-8", []⟩
    let elements : List Element := [.integer 2, .function "setMimeType", .function "dup"]
    e.Supplied .empty elements ∧
      ({ e with stack := [.text "n", .text "kept"] }.evaluateAll .empty elements).2.stack =
        [.text "n", .text "n", .text "kept"] := by
  intro e elements
  have hrun : e.evaluateAll .empty elements =
      (.ok (), ⟨[.text "n", .text "n"], e.sink, [.operationFailed .setMimeType (.notText "int")]⟩) :=
    rfl
  have h : e.Supplied .empty elements := by
    refine ⟨?_, [.operationFailed .setMimeType (.notText "int")], ?_, by simp⟩
    · rw [hrun]
      simp
    · rw [hrun]
      rfl
  refine ⟨h, ?_⟩
  have hlocal := evaluateAll_local h [.text "kept"]
  rw [hrun] at hlocal
  exact congrArg (fun r => r.2.stack) hlocal

end Echo

end Stencil
