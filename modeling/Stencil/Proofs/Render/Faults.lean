import Stencil.Proofs.Render.Isolation
import Stencil.Proofs.Render.Outcome
import Stencil.Proofs.Render.SinkMap
import Stencil.Proofs.Render.Termination

/-!
# Why renders fail

Into a sink that takes whatever is written, a render fails for a reason that the template shows: a
name in an echo that nothing binds or that no operation has, an operator, or the head of a loop
(`Reference.exists_origin`). All of these are faults that a user can mend and is told of, but one:
a whole number that no double can hold meets an operator, or a loop walks out of the range of
doubles. A tree is `InRange` if neither can happen, and then a render ends, and tells the user why
if it fails (`renderText_isUserFacing`).
-/

set_option autoImplicit false

namespace Stencil

open Double (Fits)

/-! ## Faults that a user is told of -/

/-- Whether a fault is told to the user. The others are those of numbers that are too large for a
double and of texts or encodings that a sink can not handle. -/
def EvalFault.isUserFacing : EvalFault → Bool
  | .value .tooLarge => false
  | .sink fault => fault = .headerSent
  | _ => true

/-! ## The echoes of a tree -/

mutual

/-- The echoes of a tree, each beside the names of the loops around it, the inner ones first. An
echo under a loop is listed once, however often the loop visits it. -/
def Node.echoes : List String → Node → List (List String × List Element)
  | scope, .document children => Node.echoesOfAll scope children
  | _, .text _ => []
  | scope, .echo elements => [(scope, elements)]
  | scope, .forLoop head body => Node.echoesOfAll (head.name :: scope) body

def Node.echoesOfAll : List String → List Node → List (List String × List Element)
  | _, [] => []
  | scope, n :: ns => n.echoes scope ++ Node.echoesOfAll scope ns

end

/-- Why an echo fails within loops over the names of a scope. The causes are told by the elements
and the scope, without the values on the stack; so they say what can go wrong and not that it does.
-/
inductive EchoFault (scope : List String) (elements : List Element) : EvalFault → Prop
  | noVariable {name : String} (hmem : .variable name ∈ elements) (hscope : name ∉ scope) :
      EchoFault scope elements (.noVariable name)
  | unknownFunction {name : String} (hmem : .function name ∈ elements)
      (hname : Builtin.ofName? name = none) : EchoFault scope elements (.unknownFunction name)
  | underflow {op : Operator} (count : Nat) (hmem : .operator op ∈ elements) (hcount : count < 2) :
      EchoFault scope elements (.underflow op count)
  | notNumber {op : Operator} (s : String) (hmem : .operator op ∈ elements) :
      EchoFault scope elements (.value (.notNumber s .double))
  | tooLarge {op : Operator} {n : Int} (hmem : .operator op ∈ elements)
      (hn : .integer n ∈ elements) (hfits : ¬ Fits n) :
      EchoFault scope elements (.value .tooLarge)
  | divisionByZero (hmem : .operator .divide ∈ elements) :
      EchoFault scope elements (.value .divisionByZero)

/-- Why a loop fails, apart from its body: it is refused, or its turns go on as long as their values
can be compared with its end. -/
inductive Loop.Fails (l : Loop) : EvalFault → Prop
  | refused (hr : l.Refused) : l.Fails (.loopStep l.stride l.source)
  | tooLarge (hr : ¬ l.Refused) (hturns : ∀ count, ¬ l.HasTurns count) :
      l.Fails (.value .tooLarge)

/-! ## Values on the stack of an echo -/

/-- A value that an echo can have on its stack: a double, a text, or a whole number that has the
property. -/
def Value.Within (P : Int → Prop) : Value → Prop
  | .integer n => P n
  | v => v.IsMade

namespace Value

variable {P : Int → Prop} {v : Value}

theorem IsMade.within (h : v.IsMade) : v.Within P := by
  cases v with
  | double x => exact trivial
  | text s => exact trivial
  | _ => exact h.elim

theorem Within.exists_format (h : v.Within P) : ∃ text, v.format = .ok text := by
  cases v with
  | absent => exact h.elim
  | foreign kind => exact h.elim
  | _ => exact ⟨_, rfl⟩

theorem Within.fault_of_toDouble (h : v.Within P) {fault : ValueFault}
    (hv : v.toDouble = .error fault) :
    (∃ s, fault = .notNumber s .double) ∨ fault = .tooLarge ∧ ∃ n, P n ∧ ¬ Fits n := by
  cases v with
  | absent => exact h.elim
  | foreign kind => exact h.elim
  | double x => exact absurd hv (by simp [toDouble])
  | integer n =>
    obtain ⟨hn, rfl⟩ := not_fits_of_toDouble_integer hv
    exact .inr ⟨rfl, n, h, hn⟩
  | text s =>
    obtain ⟨-, rfl⟩ := eq_none_of_elim_eq_error hv
    exact .inl ⟨s, rfl⟩

end Value

namespace Operator

theorem exchanged_run (op : Operator) (stack : List Value) : Exchanged stack (op.run stack).2 := by
  match stack with
  | [] => exact .refl []
  | [v] => exact .refl [v]
  | r :: l :: rest =>
    rw [run]
    cases r.toDouble with
    | error fault => exact .take_one r (l :: rest)
    | ok right =>
      dsimp only
      cases l.toDouble with
      | error fault => exact .take_two r l rest
      | ok left =>
        dsimp only
        split
        · exact .take_two r l rest
        · exact .make_of_two r l rest trivial

theorem fault_of_run {op : Operator} {stack : List Value} {fault : EvalFault}
    (h : (op.run stack).1 = .error fault) :
    (∃ count < 2, fault = .underflow op count) ∨
      (∃ v ∈ stack, ∃ f, v.toDouble = .error f ∧ fault = .value f) ∨
      op = .divide ∧ fault = .value .divisionByZero := by
  match stack with
  | [] => exact .inl ⟨0, by decide, (Except.error.inj h).symm⟩
  | [v] => exact .inl ⟨1, by decide, (Except.error.inj h).symm⟩
  | r :: l :: rest =>
    rw [run] at h
    cases hr : r.toDouble with
    | error f =>
      rw [hr] at h
      exact .inr (.inl ⟨r, List.mem_cons_self, f, hr, (Except.error.inj h).symm⟩)
    | ok right =>
      rw [hr] at h
      dsimp only at h
      cases hl : l.toDouble with
      | error f =>
        rw [hl] at h
        have hmem : l ∈ r :: l :: rest := List.mem_cons_of_mem r List.mem_cons_self
        exact .inr (.inl ⟨l, hmem, f, hl, (Except.error.inj h).symm⟩)
      | ok left =>
        rw [hl] at h
        dsimp only at h
        split at h
        · rename_i hzero
          exact .inr (.inr ⟨hzero.1, (Except.error.inj h).symm⟩)
        · exact nomatch h

end Operator

/-! ## Echoes -/

variable {σ : Type} [Sink σ]

theorem Seen.text_of_accepts (hσ : Accepts σ) (o : Seen σ) (content : String) :
    (o.text content).1 = .ok () := by
  show (Sink.write o.sink content).1.mapError EvalFault.sink = .ok ()
  rw [hσ o.sink content]
  rfl

theorem Echo.writeAll_of_accepts (hσ : Accepts σ) {P : Int → Prop} {values : List Value} (sink : σ)
    (h : ∀ v ∈ values, v.Within P) : (writeAll sink values).1 = .ok () := by
  induction values generalizing sink with
  | nil => rfl
  | cons v rest ih =>
    obtain ⟨hv, hrest⟩ := List.forall_mem_cons.1 h
    obtain ⟨text, htext⟩ := hv.exists_format
    have hanswer := hσ sink text
    rw [writeAll, htext]
    dsimp only
    cases hwrite : Sink.write sink text with
    | mk answer sink' =>
      rw [hwrite] at hanswer
      obtain rfl : answer = .ok () := hanswer
      exact ih sink' hrest

namespace Env

variable {env : Env} {elements : List Element}

/-- What the whole numbers on the stack of an echo are: values of loops, which fit into doubles, or
constants of the echo. -/
def Known (elements : List Element) (n : Int) : Prop := Fits n ∨ .integer n ∈ elements

theorem exists_mem_of_value? {name : String} {n : Int} (h : env.value? name = some n) :
    ∃ entry ∈ env, entry.2 = n := by
  obtain ⟨entry, hfind, hn⟩ := Option.map_eq_some_iff.1 h
  exact ⟨entry, List.mem_of_find?_eq_some hfind, hn⟩

theorem not_mem_of_value? {name : String} (h : env.value? name = none) :
    name ∉ env.map Prod.fst := by
  intro hmem
  obtain ⟨entry, hentry, rfl⟩ := List.mem_map.1 hmem
  have hnone := List.find?_eq_none.1 (Option.map_eq_none_iff.1 h) entry hentry
  exact hnone (beq_self_eq_true entry.1)

/-- One element: the values on the stack stay known, and a failure has its reason. What is known of
a value is that it came from the tree, from a loop or from an operation. -/
theorem evaluate_known (henv : ∀ entry ∈ env, Fits entry.2) {e : Echo σ} {element : Element}
    (hmem : element ∈ elements) (hstack : ∀ v ∈ e.stack, v.Within (Known elements)) :
    (∀ v ∈ (env.evaluate e element).2.stack, v.Within (Known elements)) ∧
      ∀ fault, (env.evaluate e element).1 = .error fault →
        EchoFault (env.map Prod.fst) elements fault := by
  -- Constants and variables are put on the stack and do nothing else.
  have hpush (v : Value) (hv : v.Within (Known elements)) :
      (∀ w ∈ (e.push v).2.stack, w.Within (Known elements)) ∧
        ∀ fault, (e.push v).1 = .error fault → EchoFault (env.map Prod.fst) elements fault :=
    ⟨List.forall_mem_cons.2 ⟨hv, hstack⟩, fun _ h => absurd h (by simp [Echo.push])⟩
  cases element with
  | integer n => exact hpush (.integer n) (.inr hmem)
  | double x => exact hpush (.double x) trivial
  | string s => exact hpush (.text s) trivial
  | «variable» name =>
    rw [evaluate]
    cases hvalue : env.value? name with
    | none =>
      refine ⟨hstack, fun fault h => ?_⟩
      rw [← Except.error.inj h]
      exact .noVariable hmem (not_mem_of_value? hvalue)
    | some n =>
      obtain ⟨entry, hentry, rfl⟩ := exists_mem_of_value? hvalue
      exact hpush (.integer entry.2) (.inl (henv entry hentry))
  | function name =>
    simp only [evaluate, Echo.evaluate]
    cases hname : Builtin.ofName? name with
    | none =>
      refine ⟨hstack, fun fault h => ?_⟩
      rw [← Except.error.inj h]
      exact .unknownFunction hmem hname
    | some op =>
      -- An operation never ends an echo, and hands values on or makes texts and doubles.
      refine ⟨?_, fun _ h => absurd h (by simp)⟩
      dsimp only
      rw [Echo.stack_call]
      exact (op.exchanged_call e.stack e.sink).forall_mem (fun v => Value.IsMade.within) hstack
  | operator op =>
    refine ⟨(op.exchanged_run e.stack).forall_mem (fun v => Value.IsMade.within) hstack, ?_⟩
    intro fault h
    rcases Operator.fault_of_run h with ⟨count, hcount, rfl⟩ | ⟨v, hv, f, hf, rfl⟩ | ⟨rfl, rfl⟩
    · exact .underflow count hmem hcount
    · rcases (hstack v hv).fault_of_toDouble hf with ⟨s, rfl⟩ | ⟨rfl, n, hn, hfits⟩
      · exact .notNumber s hmem
      · exact .tooLarge hmem (hn.resolve_left hfits) hfits
    · exact .divisionByZero hmem

theorem evaluateAll_known (henv : ∀ entry ∈ env, Fits entry.2) (rest : List Element) :
    ∀ e : Echo σ, rest ⊆ elements → (∀ v ∈ e.stack, v.Within (Known elements)) →
      (∀ v ∈ (env.evaluateAll e rest).2.stack, v.Within (Known elements)) ∧
        ∀ fault, (env.evaluateAll e rest).1 = .error fault →
          EchoFault (env.map Prod.fst) elements fault := by
  induction rest with
  | nil => exact fun e _ hstack => ⟨hstack, fun _ h => nomatch h⟩
  | cons element rest ih =>
    intro e hsubset hstack
    obtain ⟨hmem, hrest⟩ := List.cons_subset.1 hsubset
    obtain ⟨hnext, hfault⟩ := evaluate_known henv hmem hstack
    rw [evaluateAll]
    cases heval : env.evaluate e element with
    | mk answer e' =>
      rw [heval] at hnext hfault
      cases answer with
      | ok _ => exact ih e' hrest hnext
      | error fault => exact ⟨hnext, hfault⟩

theorem echo_known (hσ : Accepts σ) (henv : ∀ entry ∈ env, Fits entry.2) {o : Seen σ}
    {fault : EvalFault} (h : (env.echo o elements).1 = .error fault) :
    EchoFault (env.map Prod.fst) elements fault := by
  obtain ⟨hstack, hfault⟩ := evaluateAll_known henv elements ⟨[], o.sink, o.errors⟩
    (List.Subset.refl elements) fun _ hv => nomatch hv
  rw [echo] at h
  cases heval : env.evaluateAll ⟨[], o.sink, o.errors⟩ elements with
  | mk answer e =>
    rw [heval] at h hstack hfault
    cases answer with
    | error f => exact hfault fault h
    | ok _ =>
      have hwrite : (Echo.writeAll e.sink e.stack.reverse).1 = .ok () :=
        Echo.writeAll_of_accepts hσ e.sink fun v hv => hstack v (List.mem_reverse.1 hv)
      exact nomatch hwrite.symm.trans h

end Env

/-! ## Where the fault of a run comes from -/

namespace Task

def echoes (scope : List String) : Task → List (List String × List Element)
  | node n => n.echoes scope
  | nodes ns => Node.echoesOfAll scope ns
  | turns head body _ => Node.echoesOfAll (head.name :: scope) body

def loops : Task → List Loop
  | node n => n.loops
  | nodes ns => Node.loopsOfAll ns
  | turns head body _ => head :: Node.loopsOfAll body

def Reached : Task → Prop
  | turns head _ turn => ¬ head.Refused ∧ ∀ t < turn, head.Continues t
  | _ => True

def Origin (task : Task) (scope : List String) (fault : EvalFault) : Prop :=
  (∃ echo ∈ task.echoes scope, EchoFault echo.1 echo.2 fault) ∨ ∃ l ∈ task.loops, l.Fails fault

theorem Origin.mono {task task' : Task} {scope scope' : List String} {fault : EvalFault}
    (h : task.Origin scope fault) (hechoes : task.echoes scope ⊆ task'.echoes scope')
    (hloops : task.loops ⊆ task'.loops) : task'.Origin scope' fault := by
  rcases h with ⟨echo, hecho, hfault⟩ | ⟨l, hl, hfails⟩
  · exact .inl ⟨echo, hechoes hecho, hfault⟩
  · exact .inr ⟨l, hloops hl, hfails⟩

end Task

namespace Loop

variable {l : Loop} {turn : Nat}

theorem fault_of_compare {fault : ValueFault} (h : l.compare turn = .error fault) :
    fault = .tooLarge := by
  by_cases hfits : Fits (l.value turn) ∧ Fits l.stop
  · rw [compare, Cell.compare_integer hfits.1 hfits.2] at h
    exact absurd h (by simp)
  · rw [compare, Cell.compare_integer_of_not_fits hfits] at h
    exact (Except.error.inj h).symm

/-- A loop that comes to a value which can not be compared has no last turn. It fails there, after
all the turns before it have been visited. -/
theorem not_hasTurns_of_error {fault : ValueFault} (hbelow : ∀ t < turn, l.Continues t)
    (h : l.compare turn = .error fault) (count : Nat) : ¬ l.HasTurns count := by
  intro hturns
  rcases Nat.lt_trichotomy count turn with hlt | rfl | hlt
  · exact hturns.not_continues (hbelow count hlt)
  · obtain ⟨sign, hc, -⟩ := hturns.above
    exact nomatch h.symm.trans hc
  · obtain ⟨sign, hc, -⟩ := hturns.below turn hlt
    exact nomatch h.symm.trans hc

end Loop

/-- A fault of a run comes from an echo or from the head of a loop. By induction on the derivation:
the values in scope fit into doubles because they have been compared. -/
theorem Reference.exists_origin (hσ : Accepts σ) {env : Env} {task : Task} {o o' : Seen σ}
    {result : Except EvalFault Unit} (h : Reference env task o result o') :
    ∀ {fault : EvalFault}, result = .error fault → (∀ entry ∈ env, Fits entry.2) → task.Reached →
      task.Origin (env.map Prod.fst) fault := by
  induction h with
  | document _ ih =>
    intro fault hresult henv _
    exact ih hresult henv trivial
  | text content o =>
    intro fault hresult _ _
    exact nomatch (o.text_of_accepts hσ content).symm.trans hresult
  | echo env elements o =>
    intro fault hresult henv _
    exact .inl ⟨_, List.mem_singleton_self _, Env.echo_known hσ henv hresult⟩
  | @refused env head body o hr =>
    intro fault hresult _ _
    rw [← Except.error.inj hresult]
    exact .inr ⟨head, List.mem_cons_self, .refused hr⟩
  | loop hr _ ih =>
    intro fault hresult henv _
    exact ih hresult henv ⟨hr, fun t ht => absurd ht (Nat.not_lt_zero t)⟩
  | nil =>
    intro fault hresult _ _
    exact nomatch hresult
  | cons _ _ _ ih =>
    intro fault hresult henv _
    have horigin := ih hresult henv trivial
    exact horigin.mono (List.subset_append_right _ _) (List.subset_append_right _ _)
  | failed _ ih =>
    intro fault hresult henv _
    have horigin := ih hresult henv trivial
    exact horigin.mono (List.subset_append_left _ _) (List.subset_append_left _ _)
  | @incomparable env head body turn o f hc =>
    intro fault hresult _ hreached
    obtain rfl := Loop.fault_of_compare hc
    rw [← Except.error.inj hresult]
    have hturns := Loop.not_hasTurns_of_error hreached.2 hc
    exact .inr ⟨head, List.mem_cons_self, .tooLarge hreached.1 hturns⟩
  | finished _ _ =>
    intro fault hresult _ _
    exact nomatch hresult
  | @turn env head body turn o o' o'' sign result hc hs _ _ _ ih =>
    intro fault hresult henv hreached
    -- This turn has gone on as well, so the next one is reached.
    refine ih hresult henv ⟨hreached.1, fun t ht => ?_⟩
    rcases Nat.lt_succ_iff_lt_or_eq.1 ht with hlt | rfl
    · exact hreached.2 t hlt
    · exact ⟨sign, hc, hs⟩
  | broken hc _ _ ih =>
    intro fault hresult henv _
    -- The value was compared before the body was visited, and so it fits into a double.
    have hvalue := (Loop.compare_eq_ok_iff.1 hc).1
    have horigin := ih hresult (List.forall_mem_cons.2 ⟨hvalue, henv⟩) trivial
    exact horigin.mono (List.Subset.refl _) (List.subset_cons_self _ _)

/-! ## Trees in range -/

/-- No double that a number is needed for is out of range: where an echo has an operator, its whole
numbers fit into doubles, and the turns of each loop come to a value above its end. -/
structure Node.InRange (document : Node) : Prop where
  echoes : ∀ echo ∈ document.echoes [], ∀ op, .operator op ∈ echo.2 →
    ∀ n, .integer n ∈ echo.2 → Fits n
  loops : ∀ l ∈ document.loops, l.Refused ∨ ∃ count, l.HasTurns count

namespace Node.InRange

variable {document : Node}

theorem isUserFacing (h : document.InRange) {fault : EvalFault}
    (horigin : (Task.node document).Origin [] fault) : fault.isUserFacing = true := by
  rcases horigin with ⟨echo, hecho, hfault⟩ | ⟨l, hl, hfails⟩
  · cases hfault with
    | tooLarge hmem hn hfits => exact absurd (h.echoes echo hecho _ hmem _ hn) hfits
    | _ => rfl
  · cases hfails with
    | refused hr => rfl
    | tooLarge hr hturns =>
      rcases h.loops l hl with hrefused | ⟨count, hcount⟩
      · exact absurd hrefused hr
      · exact absurd hcount (hturns count)

/-- No loop of such a document is stuck: each is refused, or comes to a value above its end, and a
stuck loop does neither. -/
theorem not_stuck (h : document.InRange) : ∀ l ∈ document.loops, ¬ l.Stuck := by
  rintro l hl ⟨hstride, hlt, hlevel⟩
  rcases h.loops l hl with hrefused | ⟨count, hcount⟩
  · exact Int.not_le.2 hlt hrefused.2
  · obtain ⟨sign, hc, hs⟩ := hcount.above
    rw [Loop.compare_of_stride_zero hstride, hlevel] at hc
    exact hs (Int.le_of_eq (Except.ok.inj hc).symm)

end Node.InRange

theorem Task.Origin.isUserFacing_or {task : Task} {scope : List String} {fault : EvalFault}
    (h : task.Origin scope fault) : fault.isUserFacing = true ∨ fault = .value .tooLarge := by
  rcases h with ⟨echo, -, hfault⟩ | ⟨l, -, hfails⟩
  · cases hfault with
    | tooLarge => exact .inr rfl
    | _ => exact .inl rfl
  · cases hfails with
    | refused => exact .inl rfl
    | tooLarge => exact .inr rfl

/-! ## Renders -/

section

variable {template : String} {document : Node} {sink : σ} {limit : Nat} {r : Run σ}

theorem origin_of_render (hσ : Accepts σ) (hparse : parse template = .ok document)
    {fault : EvalFault} (h : render limit template sink = .ok (.failed fault, r)) :
    (Task.node document).Origin [] fault := by
  have href : Reference [] (.node document) ⟨sink, []⟩ (.error fault) r.seen :=
    reference_of_render hparse h
  exact href.exists_origin hσ rfl (fun _ hentry => nomatch hentry) trivial

theorem Node.InRange.exists_renders (h : document.InRange) (hparse : parse template = .ok document)
    (sink : σ) : ∃ result o, Renders template sink result o := by
  obtain ⟨result, o, href⟩ := Task.total_node document h.not_stuck [] ⟨sink, []⟩
  exact ⟨result, o, href.renders hparse⟩

end

/-- A render as text fails with what the user is told, or because a number is too large. If a
template is in range, its render ends, and only a fault that the user is told of makes it fail. -/
theorem renderText_isUserFacing (template : String) (request persistent : Dictionary String) :
    (∀ limit fault r, renderText limit template request persistent = .ok (.failed fault, r) →
      fault.isUserFacing = true ∨ fault = .value .tooLarge) ∧
    ((∀ document, parse template = .ok document → document.InRange) →
      ∃ limit, ∀ more ≥ limit,
        (∃ e, renderText more template request persistent = .error e) ∨
        (∃ r, renderText more template request persistent = .ok (.returned, r)) ∨
        ∃ fault r, renderText more template request persistent = .ok (.failed fault, r) ∧
          fault.isUserFacing = true) := by
  cases hparse : parse template with
  | error e =>
    have hrender : ∀ limit, renderText limit template request persistent = .error e := by
      intro limit
      rw [renderText, render, hparse]
      rfl
    refine ⟨fun limit fault r h => ?_, fun _ => ⟨0, fun more _ => .inl ⟨e, hrender more⟩⟩⟩
    exact absurd ((hrender limit).symm.trans h) (by simp)
  | ok document =>
    refine ⟨fun limit fault r h => ?_, fun hrange => ?_⟩
    · exact (origin_of_render TextSink.accepts hparse h).isUserFacing_or
    have hdocument := hrange document rfl
    obtain ⟨result, o, limit, hends⟩ :=
      hdocument.exists_renders hparse (TextSink.start (.start request persistent) "UTF-8")
    refine ⟨limit, fun more hmore => ?_⟩
    obtain ⟨r, hrun, -⟩ := hends more hmore
    cases result with
    | ok _ => exact .inr (.inl ⟨r, hrun⟩)
    | error fault =>
      have horigin := origin_of_render TextSink.accepts hparse hrun
      exact .inr (.inr ⟨fault, r, hrun, hdocument.isUserFacing horigin⟩)

/-- A loop up to 2 is in range, and so is an echo that adds a text to its value. That the text is no
number is told to the user. -/
theorem renderText_isUserFacing_text :
    let template := "\x7b$FOR i 1 2$\x7d\x7b$= i \"x\" + $\x7d\x7b$END$\x7d"
    ∃ document, parse template = .ok document ∧ document.InRange ∧
      ∃ limit, ∀ more ≥ limit, ∃ fault r,
        renderText more template .empty .empty = .ok (.failed fault, r) ∧
          fault.isUserFacing = true := by
  intro template
  let head : Loop := ⟨"i", 1, 2, none⟩
  let document : Node :=
    .document [.forLoop head [.echo [.variable "i", .string "x", .operator .plus]]]
  have hparse : parse "\x7b$FOR i 1 2$\x7d\x7b$= i \"x\" + $\x7d\x7b$END$\x7d" = .ok document :=
    parse_tags
      ["\x7b$FOR i 1 2$\x7d".toList, "\x7b$= i \"x\" + $\x7d".toList, "\x7b$END$\x7d".toList]
      rfl
      (.cons ⟨⟨"$FOR i 1 2$".toList, rfl, by decide⟩, rfl⟩
        (.cons ⟨⟨"$= i \"x\" + $".toList, rfl, by decide⟩, rfl⟩
          (.cons ⟨⟨"$END$".toList, rfl, by decide⟩, rfl⟩ .nil)))
      (.loop (.echo .nil) .nil)
  have hrange : document.InRange := by
    refine ⟨fun echo hecho op _ n hn => ?_, fun l hl => .inr ?_⟩
    · obtain rfl := List.mem_singleton.1 hecho
      simp at hn
    · obtain rfl := List.mem_singleton.1 hl
      have hexact : head.Exact :=
        Loop.exact_of_le (by decide) (by decide) (by decide) (by decide)
      exact ⟨_, (Loop.hasTurns_trips_iff (by decide)).2 hexact⟩
  obtain ⟨limit, hends⟩ := (renderText_isUserFacing template .empty .empty).2 fun d hd =>
    Except.ok.inj (hparse.symm.trans hd) ▸ hrange
  -- The first turn fails, so that the render does not return within any limit.
  have hfirst : ∃ r, renderText 1 template .empty .empty =
      .ok (.failed (.value (.notNumber "x" .double)), r) :=
    ⟨_, render_of_parse hparse (by decide +kernel)⟩
  obtain ⟨first, hfirst⟩ := hfirst
  have href : Reference [] (.node document) ⟨_, []⟩ (.error _) first.seen :=
    reference_of_render hparse hfirst
  obtain ⟨limit', hfails⟩ := href.renders hparse
  refine ⟨document, hparse, hrange, max limit limit', fun more hmore => ?_⟩
  have hle : limit ≤ more := by omega
  have hle' : limit' ≤ more := by omega
  obtain ⟨r, hrun, -⟩ := hfails more hle'
  rcases hends more hle with ⟨e, h⟩ | ⟨r', h⟩ | h
  · exact nomatch h.symm.trans hrun
  · exact nomatch h.symm.trans hrun
  · exact h

/-- No double can hold `10 ^ 309`, so that nothing can be added to it. The user is not told so: the
failure is of a kind that the program does not expect from a template. -/
theorem not_renderText_isUserFacing :
    (∃ r, renderText 0
        ("\x7b$= 1" ++ String.ofList (List.replicate 309 '0') ++ " 0 + $\x7d") .empty .empty =
          .ok (.failed (.value .tooLarge), r)) ∧
      (EvalFault.value .tooLarge).isUserFacing = false := by
  let inner : List Char :=
    ['$', '=', ' ', '1'] ++ List.replicate 309 '0' ++ [' ', '0', ' ', '+', ' ', '$']
  have htext : ("\x7b$= 1" ++ String.ofList (List.replicate 309 '0') ++ " 0 + $\x7d").toList =
      '{' :: (inner ++ ['}']) := by
    simp only [inner, String.toList_append, String.toList_ofList, List.append_assoc]
    rfl
  have hparse : parse ("\x7b$= 1" ++ String.ofList (List.replicate 309 '0') ++ " 0 + $\x7d") =
      .ok (.document [.echo [.integer (Int.pow 10 309), .integer 0, .operator .plus]]) := by
    have htrim : trim ('{' :: (inner ++ ['}'])) = '{' :: (inner ++ ['}']) := by decide +kernel
    refine parse_echo ?_ ?_
    · rw [htext, htrim]
      exact ⟨inner, rfl, by decide +kernel⟩
    · rw [htext, htrim]
      decide +kernel
  exact ⟨⟨_, render_of_parse hparse (by decide +kernel)⟩, rfl⟩

end Stencil
