import Stencil.Builtin

/-!
# What operations do to a sink

An operation takes its operands before it turns to the sink, and what it then does there depends on
nothing but the operands: nothing at all, or it sets the media type, reads a parameter or edits a
scope (`Builtin.plan`). So what a call does to sinks of any kind is shown in these four cases
(`Builtin.call_eq_perform`).
-/

set_option autoImplicit false

namespace Stencil

/-! ## Edits -/

namespace Dictionary

variable {α : Type}

/-- An assignment to a name, or its deletion. Edits are data so that the same ones can be made to
another dictionary, without running a template again. -/
inductive Edit (α : Type) where
  | put (name : String) (a : α)
  | erase (name : String)

def edit (d : Dictionary α) : Edit α → Dictionary α
  | .put name a => d.put name a
  | .erase name => d.erase name

def editAll (d : Dictionary α) (edits : List (Edit α)) : Dictionary α := edits.foldl edit d

@[simp] theorem editAll_nil (d : Dictionary α) : d.editAll [] = d := rfl

theorem editAll_concat (d : Dictionary α) (edits : List (Edit α)) (e : Edit α) :
    d.editAll (edits ++ [e]) = (d.editAll edits).edit e := by
  simp [editAll]

end Dictionary

def Sink.modify {σ : Type} [Sink σ] (s : σ) (scope : OwnScope)
    (f : Dictionary String → Dictionary String) : σ :=
  withScopes s ((scopes s).modify scope f)

/-! ## Plans -/

namespace Builtin

/-- What is left to do once the operands are taken. An operation's plan depends on the stack alone
and not on the sink; so what holds of every sink is shown of these four cases, and not of twelve
operations. -/
inductive Plan where
  | leave (result : Except Failure (List Value))
  | setMimeType (text : String) (rest : List Value)
  | read (scope : Scope) (name value : String) (rest : List Value)
  | edit (scope : OwnScope) (e : Dictionary.Edit String) (rest : List Value)

def plan (op : Builtin) (stack : List Value) : Plan :=
  match op with
  | .sine => .leave (sineOf stack)
  | .formatNumber => .leave (formatNumberOf stack)
  | .duplicate => .leave (duplicateOf stack)
  | .swap => .leave (swapOf stack)
  | .setMimeType =>
    match popText stack with
    | .error failure => .leave (.error failure)
    | .ok (text, rest) => .setMimeType text rest
  | .getParameter scope =>
    match popEntry stack with
    | .error failure => .leave (.error failure)
    | .ok (name, value, rest) => .read scope name value rest
  | .setParameter scope =>
    match popEntry stack with
    | .error failure => .leave (.error failure)
    | .ok (name, value, rest) => .edit scope (.put name value) rest
  | .deleteParameter scope =>
    match popText stack with
    | .error failure => .leave (.error failure)
    | .ok (name, rest) => .edit scope (.erase name) rest

variable {σ : Type} [Sink σ]

def Plan.perform (p : Plan) (s : σ) : Except Failure (List Value × σ) :=
  match p with
  | .leave result => result.map (·, s)
  | .setMimeType text rest =>
    match Sink.setMimeType s text with
    | .ok s => .ok (rest, s)
    | .error fault => .error (.sink fault, rest)
  | .read scope name value rest =>
    .ok (.text (((Sink.scopes s).get? scope name).getD value) :: rest, s)
  | .edit scope e rest =>
    .ok (rest, Sink.modify s scope (·.edit e))

theorem call_eq_perform (op : Builtin) (stack : List Value) (s : σ) :
    op.call stack s = (op.plan stack).perform s := by
  cases op with
  | sine => rfl
  | formatNumber => rfl
  | duplicate => rfl
  | swap => rfl
  | setMimeType =>
    simp only [call, plan, bind, Except.bind]
    cases popText stack <;> rfl
  | getParameter scope =>
    simp only [call, plan, bind, Except.bind]
    cases popEntry stack <;> rfl
  | setParameter scope =>
    simp only [call, plan, bind, Except.bind]
    cases popEntry stack <;> rfl
  | deleteParameter scope =>
    simp only [call, plan, bind, Except.bind]
    cases popText stack <;> rfl

/-! ## What a plan says of the operation -/

theorem eq_of_plan_setMimeType {op : Builtin} {stack rest : List Value} {text : String}
    (h : op.plan stack = .setMimeType text rest) : op = .setMimeType := by
  cases op with
  | setMimeType => rfl
  | sine | formatNumber | duplicate | swap => exact nomatch h
  | getParameter _ | setParameter _ | deleteParameter _ =>
    simp only [plan] at h
    split at h <;> exact nomatch h

theorem eq_of_plan_read {op : Builtin} {stack rest : List Value} {scope : Scope}
    {name value : String} (h : op.plan stack = .read scope name value rest) :
    op = .getParameter scope := by
  cases op with
  | getParameter other =>
    simp only [plan] at h
    split at h
    · exact nomatch h
    · rw [(Plan.read.inj h).1]
  | sine | formatNumber | duplicate | swap => exact nomatch h
  | setMimeType | setParameter _ | deleteParameter _ =>
    simp only [plan] at h
    split at h <;> exact nomatch h

end Builtin

end Stencil
