import Stencil.Proofs.Render.Faults

/-!
# Runs into families of sinks

A run can not tell sinks apart that answer all its calls alike. For a family of such sinks there is
one run: whichever member it goes into, it has the same ending, the same variables and the same log,
and what it leaves is again a family of that kind (`SinkFamilies.visit`).

A family of one says what a run keeps, a family over all dictionaries what it does not look at.
Which calls matter depends on the operations that a tree calls, and so these are a parameter.
-/

set_option autoImplicit false

namespace Stencil

/-! ## The operations of a tree -/

def CallsOnly (allowed : Builtin → Prop) (elements : List Element) : Prop :=
  ∀ name op, .function name ∈ elements → Builtin.ofName? name = some op → allowed op

theorem Builtin.name_of_ofName? {name : String} {op : Builtin} (h : ofName? name = some op) :
    op.name = name := by
  simpa using List.find?_some h

variable {ι σ : Type}

/-! ## Families -/

/-- One thing comes of an echo into all members of a family. A family is a sink for every index;
that all members go the same way, with members of a family left, says that the index has no say in
it. -/
def EchoAlike (Family : (ι → σ) → Prop) (f : Echo σ → Except EvalFault Unit × Echo σ) : Prop :=
  ∀ stack F log, Family F → ∃ answer stack' F' log', Family F' ∧
    ∀ i, f ⟨stack, F i, log⟩ = (answer, ⟨stack', F' i, log'⟩)

def RunAlike (Family : (ι → σ) → Prop) (f : Run σ → Ending × Run σ) : Prop :=
  ∀ F vars log, Family F → ∃ ending F' vars' log', Family F' ∧
    ∀ i, f ⟨F i, vars, log⟩ = (ending, ⟨F' i, vars', log'⟩)

/-! ## Loops -/

namespace RunAlike

variable {Family : (ι → σ) → Prop} {body : Run σ → Ending × Run σ}

theorem turns (hbody : RunAlike Family body) (name : String) (stop step : Int)
    (limit done : Nat) : RunAlike Family (Run.turns body name stop step limit done) := by
  induction limit generalizing done with
  | zero => exact fun F vars log hF => ⟨.unfinished, F, vars, log, hF, fun _ => rfl⟩
  | succ limit ih =>
    intro F vars log hF
    simp only [Run.turns]
    cases vars.tryPeek name with
    | none => exact ⟨.failed (.noVariable name), F, vars, log, hF, fun _ => rfl⟩
    | some cell =>
      dsimp only
      cases cell.compare (.integer stop) with
      | error fault => exact ⟨.failed (.value fault), F, vars, log, hF, fun _ => rfl⟩
      | ok sign =>
        by_cases hs : sign ≤ 0
        · obtain ⟨ending, F', vars', log', hF', hvisit⟩ := hbody F vars log hF
          simp only [if_pos hs, hvisit]
          cases ending with
          | failed fault => exact ⟨.failed fault, F', vars', log', hF', fun _ => rfl⟩
          | unfinished => exact ⟨.unfinished, F', vars', log', hF', fun _ => rfl⟩
          | returned =>
            dsimp only
            cases vars'.tryPop name with
            | none => exact ⟨.failed (.noVariable name), F', vars', log', hF', fun _ => rfl⟩
            | some popped =>
              dsimp only
              cases popped.1.increment (.integer step) with
              | error fault => exact ⟨.failed (.value fault), F', popped.2, log', hF', fun _ => rfl⟩
              | ok cell => exact ih (done + 1) F' (popped.2.push name cell) log' hF'
        · simp only [if_neg hs]
          cases vars.tryPop name with
          | none => exact ⟨.failed (.noVariable name), F, vars, log, hF, fun _ => rfl⟩
          | some popped =>
            exact ⟨.returned, F, popped.2, .loopFinished name done :: log, hF, fun _ => rfl⟩

theorem loop (hbody : RunAlike Family body) (limit : Nat) (head : Loop) :
    RunAlike Family (Run.loop limit head body) := by
  intro F vars log hF
  simp only [Run.loop]
  split
  · exact ⟨.failed (.loopStep _ head.source), F, vars, log, hF, fun _ => rfl⟩
  · exact hbody.turns head.name head.stop _ limit 0 F (vars.push head.name _) log hF

end RunAlike

/-! ## Families of sinks -/

variable [Sink σ]

/-- Families whose members answer alike when they are written to, and when one of the allowed
operations is called. -/
structure SinkFamilies (Family : (ι → σ) → Prop) (allowed : Builtin → Prop) : Prop where
  write : ∀ F, Family F → ∀ text, ∃ answer F', Family F' ∧
    ∀ i, Sink.write (F i) text = (answer, F' i)
  call : ∀ F, Family F → ∀ op, allowed op → ∀ stack,
    (∃ failure, ∀ i, op.call stack (F i) = .error failure) ∨
      ∃ stack' F', Family F' ∧ ∀ i, op.call stack (F i) = .ok (stack', F' i)

namespace SinkFamilies

variable {Family : (ι → σ) → Prop} {allowed : Builtin → Prop}

/-! ## Echoes -/

theorem evaluate (h : SinkFamilies Family allowed) (vars : NamedStacks) {element : Element}
    (hcalls : CallsOnly allowed [element]) :
    EchoAlike Family fun e => e.evaluate vars element := by
  intro stack F log hF
  cases element with
  | integer n => exact ⟨.ok (), .integer n :: stack, F, log, hF, fun _ => rfl⟩
  | double x => exact ⟨.ok (), .double x :: stack, F, log, hF, fun _ => rfl⟩
  | string s => exact ⟨.ok (), .text s :: stack, F, log, hF, fun _ => rfl⟩
  | «variable» name =>
    simp only [Echo.evaluate]
    cases vars.tryPeek name with
    | none => exact ⟨.error (.noVariable name), stack, F, log, hF, fun _ => rfl⟩
    | some cell => exact ⟨.ok (), cell.value :: stack, F, log, hF, fun _ => rfl⟩
  | function name =>
    simp only [Echo.evaluate]
    cases hop : Builtin.ofName? name with
    | none => exact ⟨.error (.unknownFunction name), stack, F, log, hF, fun _ => rfl⟩
    | some op =>
      have hallowed := hcalls name op (List.mem_singleton_self _) hop
      rcases h.call F hF op hallowed stack with
        ⟨⟨fault, stack'⟩, hcall⟩ | ⟨stack', F', hF', hcall⟩
      · refine ⟨.ok (), stack', F, .operationFailed op fault :: log, hF, fun i => ?_⟩
        simp only [Echo.call, hcall i]
      · refine ⟨.ok (), stack', F', log, hF', fun i => ?_⟩
        simp only [Echo.call, hcall i]
  | operator op => exact ⟨(op.run stack).1, (op.run stack).2, F, log, hF, fun _ => rfl⟩

theorem evaluateAll (h : SinkFamilies Family allowed) (vars : NamedStacks)
    {elements : List Element} (hcalls : CallsOnly allowed elements) :
    EchoAlike Family fun e => e.evaluateAll vars elements := by
  induction elements with
  | nil => exact fun stack F log hF => ⟨.ok (), stack, F, log, hF, fun _ => rfl⟩
  | cons element rest ih =>
    intro stack F log hF
    have hfirst : CallsOnly allowed [element] := by
      intro name op hmem hop
      exact hcalls name op (List.mem_cons.2 (.inl (List.mem_singleton.1 hmem))) hop
    have hrest : CallsOnly allowed rest := by
      intro name op hmem hop
      exact hcalls name op (List.mem_cons_of_mem _ hmem) hop
    obtain ⟨answer, stack', F', log', hF', heval⟩ := h.evaluate vars hfirst stack F log hF
    simp only [Echo.evaluateAll, heval]
    cases answer with
    | error fault => exact ⟨.error fault, stack', F', log', hF', fun _ => rfl⟩
    | ok _ => exact ih hrest stack' F' log' hF'

theorem writeAll (h : SinkFamilies Family allowed) (values : List Value) :
    ∀ F, Family F → ∃ answer F', Family F' ∧
      ∀ i, Echo.writeAll (F i) values = (answer, F' i) := by
  induction values with
  | nil => exact fun F hF => ⟨.ok (), F, hF, fun _ => rfl⟩
  | cons v rest ih =>
    intro F hF
    simp only [Echo.writeAll]
    cases v.format with
    | error fault => exact ⟨.error (.value fault), F, hF, fun _ => rfl⟩
    | ok text =>
      obtain ⟨answer, F', hF', hwrite⟩ := h.write F hF text
      simp only [hwrite]
      cases answer with
      | error fault => exact ⟨.error (.sink fault), F', hF', fun _ => rfl⟩
      | ok _ => exact ih F' hF'

/-! ## Nodes -/

theorem text (h : SinkFamilies Family allowed) (content : String) :
    RunAlike Family fun r => r.text content := by
  intro F vars log hF
  obtain ⟨answer, F', hF', hwrite⟩ := h.write F hF content
  simp only [Run.text, hwrite]
  cases answer with
  | error fault => exact ⟨.failed (.sink fault), F', vars, log, hF', fun _ => rfl⟩
  | ok _ => exact ⟨.returned, F', vars, log, hF', fun _ => rfl⟩

theorem echo (h : SinkFamilies Family allowed) {elements : List Element}
    (hcalls : CallsOnly allowed elements) : RunAlike Family fun r => r.echo elements := by
  intro F vars log hF
  obtain ⟨answer, stack, F', log', hF', heval⟩ := h.evaluateAll vars hcalls [] F log hF
  simp only [Run.echo, heval]
  cases answer with
  | error fault => exact ⟨.failed fault, F', vars, log', hF', fun _ => rfl⟩
  | ok _ =>
    obtain ⟨answer, F'', hF'', hwrite⟩ := h.writeAll stack.reverse F' hF'
    simp only [hwrite]
    cases answer with
    | error fault => exact ⟨.failed fault, F'', vars, log', hF'', fun _ => rfl⟩
    | ok _ => exact ⟨.returned, F'', vars, log', hF'', fun _ => rfl⟩

/-! ## Trees -/

mutual

/-- A visit to a tree goes alike if the tree calls none but the allowed operations. The induction is
on the tree and needs nothing of the sinks but what one call of each operation does. -/
theorem visit (h : SinkFamilies Family allowed) (limit : Nat) :
    ∀ (n : Node) (scope : List String), (∀ echo ∈ n.echoes scope, CallsOnly allowed echo.2) →
      RunAlike Family (Run.visit limit n)
  | .document children, scope, hcalls => by
    intro F vars log hF
    simp only [Run.visit]
    exact h.visitAll limit children scope hcalls F vars log hF
  | .text content, _, _ => by
    intro F vars log hF
    simp only [Run.visit]
    exact h.text content F vars log hF
  | .echo elements, scope, hcalls => by
    intro F vars log hF
    simp only [Run.visit]
    exact h.echo (hcalls (scope, elements) (List.mem_singleton_self _)) F vars log hF
  | .forLoop head body, scope, hcalls => by
    intro F vars log hF
    simp only [Run.visit]
    exact (h.visitAll limit body (head.name :: scope) hcalls).loop limit head F vars log hF

theorem visitAll (h : SinkFamilies Family allowed) (limit : Nat) :
    ∀ (ns : List Node) (scope : List String),
      (∀ echo ∈ Node.echoesOfAll scope ns, CallsOnly allowed echo.2) →
      RunAlike Family (Run.visitAll limit ns)
  | [], _, _ => by
    intro F vars log hF
    simp only [Run.visitAll]
    exact ⟨.returned, F, vars, log, hF, fun _ => rfl⟩
  | n :: ns, scope, hcalls => by
    intro F vars log hF
    obtain ⟨hfirst, hrest⟩ := List.forall_mem_append.1 hcalls
    obtain ⟨ending, F', vars', log', hF', hvisit⟩ := h.visit limit n scope hfirst F vars log hF
    simp only [Run.visitAll, hvisit]
    cases ending with
    | failed fault => exact ⟨.failed fault, F', vars', log', hF', fun _ => rfl⟩
    | unfinished => exact ⟨.unfinished, F', vars', log', hF', fun _ => rfl⟩
    | returned => exact h.visitAll limit ns scope hrest F' vars' log' hF'

end

theorem render (h : SinkFamilies Family allowed) (limit : Nat) {template : String}
    {document : Node} (hparse : parse template = .ok document)
    (hcalls : ∀ echo ∈ document.echoes [], CallsOnly allowed echo.2) {F : ι → σ}
    (hF : Family F) :
    ∃ ending F' vars log, Family F' ∧
      ∀ i, Stencil.render limit template (F i) = .ok (ending, ⟨F' i, vars, log⟩) := by
  obtain ⟨ending, F', vars, log, hF', hvisit⟩ := h.visit limit document [] hcalls F .empty _ hF
  refine ⟨ending, F', vars, log, hF', fun i => ?_⟩
  rw [Stencil.render, hparse]
  exact congrArg Except.ok (hvisit i)

end SinkFamilies

end Stencil
