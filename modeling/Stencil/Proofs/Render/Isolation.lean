import Stencil.Proofs.Builtin.Exchange
import Stencil.Proofs.Builtin.Plan
import Stencil.Render.Echo
import Stencil.Sink.Response
import Stencil.Sink.TextSink

/-!
# Calls are isolated

A template that calls a built-in operation goes on whatever the operation does. The call exchanges
at most two values at the top of the stack for at most two others, writes nothing, and touches of
the sink nothing but its parameters and its media type. If the operation fails, it does not even
touch these: all that tells of it is one error in the log (`Builtin.call_isolated`).
-/

set_option autoImplicit false

namespace Stencil

section

variable {σ : Type} [Sink σ] {Same : σ → σ → Prop}

/-- A relation that does not look at the parameters and the media type of a sink. What a sink has
put out is such a relation for both kinds of sinks, and that an operation puts out nothing is said
of any. -/
structure OutputFrame (Same : σ → σ → Prop) : Prop where
  refl : ∀ s, Same s s
  setMimeType : ∀ s mimeType s', Sink.setMimeType s mimeType = .ok s' → Same s s'
  withScopes : ∀ s scopes, Same s (Sink.withScopes s scopes)

/-- An echo before and after a call: at most two values are exchanged, nothing is put out, and a
call that fails is noted once and leaves the sink alone. -/
structure Isolated (Same : σ → σ → Prop) (before after : Echo σ) : Prop where
  stack : Exchanged before.stack after.stack
  sink : Same before.sink after.sink
  log : after.log = before.log ∨
    ∃ record : LogRecord, record.level = .error ∧ after.log = record :: before.log ∧
      after.sink = before.sink

/-- Of the sink an operation touches the parameters or the media type, once its operands are
taken. -/
theorem OutputFrame.perform (h : OutputFrame Same) {p : Builtin.Plan} {s s' : σ}
    {rest : List Value} (hok : p.perform s = .ok (rest, s')) : Same s s' := by
  cases p with
  | leave result =>
    cases result with
    | error failure => exact absurd hok (by simp [Builtin.Plan.perform, Except.map])
    | ok stack =>
      obtain ⟨-, rfl⟩ := Prod.mk.inj (Except.ok.inj hok)
      exact h.refl s
  | setMimeType text rest =>
    rw [Builtin.Plan.perform] at hok
    cases hset : Sink.setMimeType s text with
    | error fault =>
      rw [hset] at hok
      exact absurd hok (by simp)
    | ok changed =>
      rw [hset] at hok
      obtain ⟨-, rfl⟩ := Prod.mk.inj (Except.ok.inj hok)
      exact h.setMimeType s text changed hset
  | read scope name value rest =>
    obtain ⟨-, rfl⟩ := Prod.mk.inj (Except.ok.inj hok)
    exact h.refl s
  | edit scope e rest =>
    obtain ⟨-, rfl⟩ := Prod.mk.inj (Except.ok.inj hok)
    exact h.withScopes s _

theorem Echo.stack_call (e : Echo σ) (op : Builtin) :
    (e.call op).stack = op.leftByCall e.stack e.sink := by
  unfold call Builtin.leftByCall
  cases op.call e.stack e.sink <;> rfl

theorem Echo.isolated_call (h : OutputFrame Same) (e : Echo σ) (op : Builtin) :
    Isolated Same e (e.call op) := by
  have hstack : Exchanged e.stack (e.call op).stack := by
    rw [Echo.stack_call]
    exact op.exchanged_call e.stack e.sink
  cases hcall : op.call e.stack e.sink with
  | ok left =>
    obtain ⟨rest, sink⟩ := left
    have hafter : e.call op = { e with stack := rest, sink } := by rw [Echo.call, hcall]
    rw [op.call_eq_perform] at hcall
    refine ⟨hstack, ?_, .inl ?_⟩
    · rw [hafter]
      exact h.perform hcall
    · rw [hafter]
  | error failure =>
    obtain ⟨fault, rest⟩ := failure
    have hafter : e.call op =
        { e with stack := rest, log := .operationFailed op fault :: e.log } := by
      rw [Echo.call, hcall]
    refine ⟨hstack, ?_, .inr ⟨.operationFailed op fault, rfl, ?_, ?_⟩⟩
    · rw [hafter]
      exact h.refl e.sink
    · rw [hafter]
    · rw [hafter]

theorem Builtin.ofName?_name (op : Builtin) : ofName? op.name = some op := by
  cases op with
  | getParameter scope => rcases scope with _ | _ | _ <;> rfl
  | setParameter scope => cases scope <;> rfl
  | deleteParameter scope => cases scope <;> rfl
  | sine | formatNumber | duplicate | swap | setMimeType => rfl

theorem Echo.evaluate_function (vars : NamedStacks) (e : Echo σ) (op : Builtin) :
    e.evaluate vars (.function op.name) = (.ok (), e.call op) := by
  rw [Echo.evaluate, op.ofName?_name]

end

/-! ## The two sinks -/

def TextSink.SameOutput (s s' : TextSink) : Prop :=
  ∃ scopes mimeType, s' = { s with scopes, mimeType }

/-- Responses that have sent the same, and will send the same header but for the media type. It is
the one setting that a template can reach. -/
def Response.SameOutput (r r' : Response) : Prop :=
  ∃ scopes mimeType, r' = { r with scopes, mimeType }

theorem TextSink.outputFrame : OutputFrame TextSink.SameOutput where
  refl _ := ⟨_, _, rfl⟩
  setMimeType _ _ _ h := ⟨_, _, (Except.ok.inj h).symm⟩
  withScopes _ _ := ⟨_, _, rfl⟩

theorem Response.outputFrame : OutputFrame Response.SameOutput where
  refl _ := ⟨_, _, rfl⟩
  setMimeType _ _ _ h := ⟨_, _, eq_of_map_open? h⟩
  withScopes _ _ := ⟨_, _, rfl⟩

/-- A call never fails, whatever is on the stack and in whatever state the sink is. It exchanges at
most two values for at most two, and writes nothing. Either it leaves the log alone, or it adds one
error to it and leaves the sink alone. -/
theorem Builtin.call_isolated (op : Builtin) (vars : NamedStacks) :
    (∀ e : Echo TextSink, e.evaluate vars (.function op.name) = (.ok (), e.call op) ∧
      Isolated TextSink.SameOutput e (e.call op)) ∧
    ∀ e : Echo Response, e.evaluate vars (.function op.name) = (.ok (), e.call op) ∧
      Isolated Response.SameOutput e (e.call op) :=
  ⟨fun e => ⟨e.evaluate_function vars op, e.isolated_call TextSink.outputFrame op⟩,
    fun e => ⟨e.evaluate_function vars op, e.isolated_call Response.outputFrame op⟩⟩

end Stencil
