import Stencil.Proofs.Render.Scoping
import Stencil.Proofs.Render.SinkMap

/-!
# Runs into sinks that go together

A sink that takes everything leads, and another one follows it. Step by step the two stay related,
with two exceptions: the other sink may refuse a media type because it is too late, which its log
tells and which changes nothing else, and it may refuse a text, with which its run is over. A whole
run goes the same way (`SinkSimulation.render`): its variables and its stacks never depend on the
sink, so that the two runs do the same until the second one breaks.
-/

set_option autoImplicit false

namespace Stencil

/-! ## Two outcomes -/

/-- Two outcomes that go together: both have the same answer and leave what is related, or the
second one has failed with a fault of its sink and both leave what is broken. -/
inductive Simulated {α A B : Type} (R : A → B → Prop) (Broken : SinkFault → A → B → Prop)
    (fail : SinkFault → α) : α × A → α × B → Prop
  | agree (answer : α) {a : A} {b : B} (h : R a b) :
      Simulated R Broken fail (answer, a) (answer, b)
  | broken (answer : α) (fault : SinkFault) {a : A} {b : B} (h : Broken fault a b) :
      Simulated R Broken fail (answer, a) (fail fault, b)

/-- A sink that takes everything, and one that follows it until it breaks. The second may refuse a
media type that comes too late, which a run only notes; when a write breaks it, the first one goes
on alone and what is broken stays so. -/
structure SinkSimulation {τ σ : Type} [Sink τ] [Sink σ] (R : τ → σ → Prop)
    (Broken : SinkFault → τ → σ → Prop) : Prop where
  accepts : Accepts τ
  write : ∀ t s, R t s → ∀ text,
    Simulated R Broken .error (Sink.write t text) (Sink.write s text)
  setMimeType : ∀ t s, R t s → ∀ mimeType, ∃ t', Sink.setMimeType t mimeType = .ok t' ∧
    ((∃ s', Sink.setMimeType s mimeType = .ok s' ∧ R t' s') ∨
      Sink.setMimeType s mimeType = .error .headerSent ∧ R t' s)
  scopes : ∀ t s, R t s → Sink.scopes t = Sink.scopes s
  withScopes : ∀ t s, R t s → ∀ scopes, R (Sink.withScopes t scopes) (Sink.withScopes s scopes)
  broken : ∀ fault s, SinkInvariant (Broken fault · s)

/-! ## What is told of it -/

def LogRecord.isLate (record : LogRecord) : Bool :=
  record = .operationFailed .setMimeType (.sink .headerSent)

/-- A log without the records of media types that came too late. -/
def timely (log : List LogRecord) : List LogRecord := log.filter (!·.isLate)

theorem timely_cons_of_late {record : LogRecord} (h : record.isLate = true)
    (log : List LogRecord) : timely (record :: log) = timely log :=
  List.filter_cons_of_neg (by simp [h])

theorem timely_cons_of_not_late {record : LogRecord} (h : record.isLate = false)
    (log : List LogRecord) : timely (record :: log) = record :: timely log :=
  List.filter_cons_of_pos (by simp [h])

/-! ## States that go together -/

variable {τ σ : Type}

/-- Echoes with the same stack, related sinks, and the same log but for what came too late. -/
structure EchoesAgree (R : τ → σ → Prop) (e : Echo τ) (f : Echo σ) : Prop where
  stack : e.stack = f.stack
  sink : R e.sink f.sink
  log : e.log = timely f.log

structure RunsAgree (R : τ → σ → Prop) (r : Run τ) (s : Run σ) : Prop where
  sink : R r.sink s.sink
  vars : r.vars = s.vars
  log : r.log = timely s.log

/-- Two results of an operation that go together. Either both are the same, or a media type came too
late for the second sink, which the first one can not know. -/
inductive CallsAgree (R : τ → σ → Prop) (op : Builtin) (s : σ) :
    Except Builtin.Failure (List Value × τ) → Except Builtin.Failure (List Value × σ) → Prop
  | done (stack : List Value) {t' : τ} {s' : σ} (h : R t' s') :
      CallsAgree R op s (.ok (stack, t')) (.ok (stack, s'))
  | failed (fault : BuiltinFault) (stack : List Value)
      (hfault : (LogRecord.operationFailed op fault).isLate = false) :
      CallsAgree R op s (.error (fault, stack)) (.error (fault, stack))
  | late (stack : List Value) {t' : τ} (hop : op = .setMimeType) (h : R t' s) :
      CallsAgree R op s (.ok (stack, t')) (.error (.sink .headerSent, stack))

/-- How runs of the same thing go together. -/
def RunsSimulated (R : τ → σ → Prop) (Broken : SinkFault → τ → σ → Prop) :
    Ending × Run τ → Ending × Run σ → Prop :=
  Simulated (RunsAgree R) (fun fault r s => Broken fault r.sink s.sink) (.failed ∘ .sink)

variable [Sink τ] [Sink σ] {R : τ → σ → Prop} {Broken : SinkFault → τ → σ → Prop}

theorem LogRecord.isLate_of_plan {op : Builtin} {stack left : List Value} {fault : BuiltinFault}
    (h : op.plan stack = .leave (.error (fault, left))) :
    (LogRecord.operationFailed op fault).isLate = false := by
  cases op with
  | setMimeType =>
    cases stack with
    | nil =>
      cases h
      rfl
    | cons v rest =>
      cases v with
      | text s => exact nomatch h
      | _ =>
        cases h
        rfl
  | _ => simp [isLate]

namespace SinkSimulation

/-! ## Echoes -/

theorem call (h : SinkSimulation R Broken) (op : Builtin) (stack : List Value) {t : τ} {s : σ}
    (hts : R t s) : CallsAgree R op s (op.call stack t) (op.call stack s) := by
  rw [Builtin.call_eq_perform, Builtin.call_eq_perform]
  cases hplan : op.plan stack with
  | leave result =>
    cases result with
    | ok left => exact .done left hts
    | error failure => exact .failed _ _ (LogRecord.isLate_of_plan hplan)
  | setMimeType text rest =>
    obtain ⟨t', ht, ⟨s', hs, hts'⟩ | ⟨hs, hts'⟩⟩ := h.setMimeType t s hts text
    · simp only [Builtin.Plan.perform, ht, hs]
      exact .done rest hts'
    · simp only [Builtin.Plan.perform, ht, hs]
      exact .late rest (Builtin.eq_of_plan_setMimeType hplan) hts'
  | read scope name value rest =>
    simp only [Builtin.Plan.perform, h.scopes t s hts]
    exact .done _ hts
  | edit scope e rest =>
    simp only [Builtin.Plan.perform, Sink.modify, h.scopes t s hts]
    exact .done rest (h.withScopes t s hts _)

theorem echo_call (h : SinkSimulation R Broken) {e : Echo τ} {f : Echo σ}
    (hef : EchoesAgree R e f) (op : Builtin) : EchoesAgree R (e.call op) (f.call op) := by
  have hcall := h.call op e.stack hef.sink
  unfold Echo.call
  rw [← hef.stack]
  generalize op.call e.stack e.sink = x at hcall
  generalize op.call e.stack f.sink = y at hcall
  cases hcall with
  | done stack hsink => exact ⟨rfl, hsink, hef.log⟩
  | failed fault stack hfault =>
    refine ⟨rfl, hef.sink, ?_⟩
    rw [timely_cons_of_not_late hfault, ← hef.log]
  | late stack hop hsink =>
    refine ⟨rfl, hsink, ?_⟩
    rw [timely_cons_of_late (by simp [LogRecord.isLate, hop]), ← hef.log]

theorem evaluate (h : SinkSimulation R Broken) (vars : NamedStacks) {e : Echo τ} {f : Echo σ}
    (hef : EchoesAgree R e f) (element : Element) :
    (e.evaluate vars element).1 = (f.evaluate vars element).1 ∧
      EchoesAgree R (e.evaluate vars element).2 (f.evaluate vars element).2 := by
  have hpush (v : Value) : EchoesAgree R (e.push v).2 (f.push v).2 :=
    ⟨congrArg (v :: ·) hef.stack, hef.sink, hef.log⟩
  cases element with
  | integer n => exact ⟨rfl, hpush (.integer n)⟩
  | double x => exact ⟨rfl, hpush (.double x)⟩
  | string s => exact ⟨rfl, hpush (.text s)⟩
  | «variable» name =>
    simp only [Echo.evaluate]
    cases vars.tryPeek name with
    | none => exact ⟨rfl, hef⟩
    | some cell => exact ⟨rfl, hpush cell.value⟩
  | function name =>
    simp only [Echo.evaluate]
    cases Builtin.ofName? name with
    | none => exact ⟨rfl, hef⟩
    | some op => exact ⟨rfl, h.echo_call hef op⟩
  | operator op =>
    simp only [Echo.evaluate, hef.stack]
    exact ⟨trivial, rfl, hef.sink, hef.log⟩

theorem evaluateAll (h : SinkSimulation R Broken) (vars : NamedStacks) (elements : List Element) :
    ∀ {e : Echo τ} {f : Echo σ}, EchoesAgree R e f →
      (e.evaluateAll vars elements).1 = (f.evaluateAll vars elements).1 ∧
        EchoesAgree R (e.evaluateAll vars elements).2 (f.evaluateAll vars elements).2 := by
  induction elements with
  | nil => exact fun hef => ⟨rfl, hef⟩
  | cons element rest ih =>
    intro e f hef
    obtain ⟨hanswer, hnext⟩ := h.evaluate vars hef element
    rw [Echo.evaluateAll, Echo.evaluateAll]
    generalize e.evaluate vars element = x at hanswer hnext
    generalize f.evaluate vars element = y at hanswer hnext
    obtain ⟨answer, e'⟩ := x
    obtain ⟨answer', f'⟩ := y
    obtain rfl : answer = answer' := hanswer
    cases answer with
    | error fault => exact ⟨rfl, hnext⟩
    | ok _ => exact ih hnext

theorem writeAll (h : SinkSimulation R Broken) (values : List Value) :
    ∀ {t : τ} {s : σ}, R t s →
      Simulated R Broken (.error ∘ .sink) (Echo.writeAll t values) (Echo.writeAll s values) := by
  induction values with
  | nil => exact fun hts => .agree (Except.ok ()) hts
  | cons v rest ih =>
    intro t s hts
    rw [Echo.writeAll, Echo.writeAll]
    cases v.format with
    | error fault => exact .agree _ hts
    | ok text =>
      dsimp only
      have haccepts := h.accepts t text
      have hwrite := h.write t s hts text
      generalize Sink.write t text = x at haccepts hwrite
      generalize Sink.write s text = y at hwrite
      cases hwrite with
      | agree answer hnext =>
        obtain rfl : answer = .ok () := haccepts
        exact ih hnext
      | broken answer fault hbroken =>
        obtain rfl : answer = .ok () := haccepts
        exact .broken _ fault ((h.broken fault _).writeAll hbroken rest)

/-! ## Nodes -/

theorem text (h : SinkSimulation R Broken) {r : Run τ} {s : Run σ} (hrs : RunsAgree R r s)
    (content : String) : RunsSimulated R Broken (r.text content) (s.text content) := by
  have haccepts := h.accepts r.sink content
  have hwrite := h.write r.sink s.sink hrs.sink content
  unfold Run.text
  generalize Sink.write r.sink content = x at haccepts hwrite
  generalize Sink.write s.sink content = y at hwrite
  cases hwrite with
  | agree answer hnext =>
    obtain rfl : answer = .ok () := haccepts
    exact .agree Ending.returned ⟨hnext, hrs.vars, hrs.log⟩
  | broken answer fault hbroken =>
    obtain rfl : answer = .ok () := haccepts
    exact .broken Ending.returned fault hbroken

theorem echo (h : SinkSimulation R Broken) {r : Run τ} {s : Run σ} (hrs : RunsAgree R r s)
    (elements : List Element) : RunsSimulated R Broken (r.echo elements) (s.echo elements) := by
  have hstart : EchoesAgree R (⟨[], r.sink, r.log⟩ : Echo τ) ⟨[], s.sink, s.log⟩ :=
    ⟨rfl, hrs.sink, hrs.log⟩
  obtain ⟨hanswer, hend⟩ := h.evaluateAll r.vars elements hstart
  unfold Run.echo
  rw [← hrs.vars]
  generalize Echo.evaluateAll r.vars ⟨[], r.sink, r.log⟩ elements = x at hanswer hend
  generalize Echo.evaluateAll r.vars ⟨[], s.sink, s.log⟩ elements = y at hanswer hend
  obtain ⟨answer, e⟩ := x
  obtain ⟨answer', f⟩ := y
  obtain rfl : answer = answer' := hanswer
  cases answer with
  | error fault => exact .agree (Ending.failed fault) ⟨hend.sink, rfl, hend.log⟩
  | ok _ =>
    dsimp only
    have hwrite := h.writeAll e.stack.reverse hend.sink
    rw [← hend.stack]
    generalize Echo.writeAll e.sink e.stack.reverse = x at hwrite
    generalize Echo.writeAll f.sink e.stack.reverse = y at hwrite
    cases hwrite with
    | agree answer hnext =>
      cases answer with
      | ok _ => exact .agree Ending.returned ⟨hnext, rfl, hend.log⟩
      | error fault => exact .agree (Ending.failed fault) ⟨hnext, rfl, hend.log⟩
    | broken answer fault hbroken =>
      cases answer with
      | ok _ => exact .broken Ending.returned fault hbroken
      | error fault' => exact .broken (Ending.failed fault') fault hbroken

/-! ## Loops -/

section

variable {body : List Node} {limit : Nat}

/-- The turns of a loop go together if the visits to its body do. When the second run breaks in a
visit, the first one goes on, and what is broken stays broken. -/
theorem turns (h : SinkSimulation R Broken)
    (hbody : ∀ {r : Run τ} {s : Run σ}, RunsAgree R r s →
      RunsSimulated R Broken (Run.visitAll limit body r) (Run.visitAll limit body s))
    (name : String) (stop step : Int) (fuel : Nat) :
    ∀ {r : Run τ} {s : Run σ} (done : Nat), RunsAgree R r s →
      RunsSimulated R Broken (Run.turns (Run.visitAll limit body) name stop step fuel done r)
        (Run.turns (Run.visitAll limit body) name stop step fuel done s) := by
  induction fuel with
  | zero => exact fun _ hrs => .agree Ending.unfinished hrs
  | succ fuel ih =>
    intro r s done hrs
    cases hpeek : r.vars.tryPeek name with
    | none =>
      rw [Run.turns, Run.turns, ← hrs.vars, hpeek]
      exact .agree (Ending.failed _) hrs
    | some cell =>
      have hpeek' : s.vars.tryPeek name = some cell := hrs.vars ▸ hpeek
      cases hc : cell.compare (.integer stop) with
      | error fault =>
        rw [Run.turns_of_error hpeek hc, Run.turns_of_error hpeek' hc]
        exact .agree (Ending.failed _) hrs
      | ok sign =>
        by_cases hs : sign ≤ 0
        · have hvisit := hbody hrs
          generalize hx : Run.visitAll limit body r = x at hvisit
          generalize hy : Run.visitAll limit body s = y at hvisit
          cases hvisit with
          | @agree ending r' s' hrs' =>
            rw [Run.turns, Run.turns, hpeek, hpeek']
            dsimp only
            rw [hc]
            dsimp only
            rw [if_pos hs, if_pos hs, hx, hy]
            cases ending with
            | failed fault => exact .agree (Ending.failed fault) hrs'
            | unfinished => exact .agree Ending.unfinished hrs'
            | returned =>
              dsimp only
              rw [← hrs'.vars]
              cases r'.vars.tryPop name with
              | none => exact .agree (Ending.failed _) hrs'
              | some popped =>
                dsimp only
                cases popped.1.increment (.integer step) with
                | error fault => exact .agree (Ending.failed _) ⟨hrs'.sink, rfl, hrs'.log⟩
                | ok cell => exact ih (done + 1) ⟨hrs'.sink, rfl, hrs'.log⟩
          | @broken ending fault r' s' hbroken =>
            -- The second run ends here; the first one goes on, and all it does keeps the break.
            rw [Run.turns_of_ne_returned hpeek' hc hs hy (by simp)]
            have hrest := (h.broken fault s'.sink).turns_succ limit body step fuel done hpeek hc hs
              (hx ▸ hbroken)
            exact .broken _ fault hrest
        · rw [Run.turns, Run.turns, hpeek, hpeek']
          dsimp only
          rw [hc]
          dsimp only
          rw [if_neg hs, if_neg hs, ← hrs.vars]
          cases r.vars.tryPop name with
          | none => exact .agree (Ending.failed _) hrs
          | some popped =>
            refine .agree Ending.returned ⟨hrs.sink, rfl, ?_⟩
            rw [Run.note, Run.note, timely_cons_of_not_late rfl, ← hrs.log]

theorem loop (h : SinkSimulation R Broken)
    (hbody : ∀ {r : Run τ} {s : Run σ}, RunsAgree R r s →
      RunsSimulated R Broken (Run.visitAll limit body r) (Run.visitAll limit body s))
    (head : Loop) {r : Run τ} {s : Run σ} (hrs : RunsAgree R r s) :
    RunsSimulated R Broken (Run.loop limit head (Run.visitAll limit body) r)
      (Run.loop limit head (Run.visitAll limit body) s) := by
  unfold Run.loop
  dsimp only
  split
  · exact .agree (Ending.failed _) hrs
  · rw [hrs.vars]
    exact h.turns hbody _ _ _ limit 0 ⟨hrs.sink, rfl, hrs.log⟩

end

/-! ## Trees -/

mutual

theorem visit (h : SinkSimulation R Broken) (limit : Nat) :
    ∀ (n : Node) {r : Run τ} {s : Run σ}, RunsAgree R r s →
      RunsSimulated R Broken (Run.visit limit n r) (Run.visit limit n s)
  | .document children, r, s, hrs => by
    rw [Run.visit, Run.visit]
    exact h.visitAll limit children hrs
  | .text content, r, s, hrs => by
    rw [Run.visit, Run.visit]
    exact h.text hrs content
  | .echo elements, r, s, hrs => by
    rw [Run.visit, Run.visit]
    exact h.echo hrs elements
  | .forLoop head body, r, s, hrs => by
    rw [Run.visit, Run.visit]
    exact h.loop (h.visitAll limit body) head hrs

theorem visitAll (h : SinkSimulation R Broken) (limit : Nat) :
    ∀ (ns : List Node) {r : Run τ} {s : Run σ}, RunsAgree R r s →
      RunsSimulated R Broken (Run.visitAll limit ns r) (Run.visitAll limit ns s)
  | [], r, s, hrs => by
    rw [Run.visitAll, Run.visitAll]
    exact .agree Ending.returned hrs
  | n :: ns, r, s, hrs => by
    have hvisit := h.visit limit n hrs
    generalize hx : Run.visit limit n r = x at hvisit
    generalize hy : Run.visit limit n s = y at hvisit
    cases hvisit with
    | @agree ending r' s' hrs' =>
      rw [Run.visitAll, Run.visitAll, hx, hy]
      cases ending with
      | failed fault => exact .agree (Ending.failed fault) hrs'
      | unfinished => exact .agree Ending.unfinished hrs'
      | returned => exact h.visitAll limit ns hrs'
    | @broken ending fault r' s' hbroken =>
      have hrest := (h.broken fault s'.sink).visitAll_cons limit n ns (r := r) (by rwa [hx])
      have hs : Run.visitAll limit (n :: ns) s = (.failed (.sink fault), s') := by
        rw [Run.visitAll, hy]
        rfl
      rw [hs]
      exact .broken _ fault hrest

end

/-- Renders into both sinks go together: they end alike and leave related sinks, or the second sink
has broken on the way. A loop is run with the same limit for both, so running out of turns is no
exception. -/
theorem render (h : SinkSimulation R Broken) (limit : Nat) (template : String) {t : τ} {s : σ}
    (hts : R t s) :
    (∃ e, Stencil.render limit template t = .error e ∧
        Stencil.render limit template s = .error e) ∨
      ∃ x y, Stencil.render limit template t = .ok x ∧ Stencil.render limit template s = .ok y ∧
        RunsSimulated R Broken x y := by
  unfold Stencil.render
  cases parse template with
  | error e => exact .inl ⟨e, rfl, rfl⟩
  | ok document => exact .inr ⟨_, _, rfl, rfl, h.visit limit document ⟨hts, rfl, rfl⟩⟩

end SinkSimulation

end Stencil
