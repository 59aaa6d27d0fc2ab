import Stencil.Proofs.Render.Balance
import Stencil.Proofs.Render.Reference

/-!
# The engine runs trees by lexical scope

`Agrees` is what holds between the stacks of a run and the environment of the reference: under each
name stand the values of the loops of that name, the innermost on top. A run that ends is derived
by the reference (`Run.reference_of_visit`, by recursion on the tree, and on the limit within a
loop), and what the reference derives, the engine does within some limit
(`Reference.exists_limit`, by induction on the derivation). Both need that a body leaves the
stacks as it found them.
-/

set_option autoImplicit false

namespace Stencil

/-! ## Stacks and environments -/

/-- Stacks that hold the values of an environment, those under each name in the same order. The
order between different names is lost in the stacks, and no template can see it. -/
def Agrees (vars : NamedStacks) (env : Env) : Prop :=
  ∀ name, vars.cells name = (env.filter (·.1 == name)).map fun entry => ⟨.integer entry.2⟩

namespace Agrees

variable {vars vars' : NamedStacks} {env : Env}

theorem empty : Agrees .empty [] := fun _ => rfl

theorem tryPeek (h : Agrees vars env) (name : String) :
    vars.tryPeek name = (env.value? name).map fun n => ⟨.integer n⟩ := by
  rw [NamedStacks.tryPeek, h name, List.head?_map, List.head?_filter, Env.value?, Option.map_map]
  rfl

theorem push (h : Agrees vars env) (name : String) (n : Int) :
    Agrees (vars.push name ⟨.integer n⟩) ((name, n) :: env) := by
  intro k
  rw [NamedStacks.cells_push, h, h, List.filter_cons]
  by_cases hk : name = k
  · simp [hk]
  · simp [hk, Ne.symm hk]

theorem of_cells (h : Agrees vars env) (hcells : ∀ k, vars'.cells k = vars.cells k) :
    Agrees vars' env := fun k => (hcells k).trans (h k)

theorem exists_tryPop {name : String} {n : Int} (h : Agrees vars ((name, n) :: env)) :
    ∃ vars', vars.tryPop name = some (⟨.integer n⟩, vars') ∧ Agrees vars' env := by
  have hname := h name
  rw [List.filter_cons, if_pos (by simp), List.map_cons] at hname
  obtain ⟨vars', hpop, hcells⟩ := NamedStacks.exists_tryPop hname
  refine ⟨vars', hpop, fun k => ?_⟩
  rw [hcells k]
  split
  · rename_i hk
    rw [hk]
  · rename_i hk
    rw [h k, List.filter_cons, if_neg (by simpa using Ne.symm hk)]

end Agrees

variable {σ : Type} [Sink σ]

/-! ## Texts and echoes -/

theorem errors_cons (record : LogRecord) (log : List LogRecord) :
    errors (record :: log) =
      if record.level = .error then record :: errors log else errors log := by
  unfold errors
  rw [List.filter_cons]
  by_cases h : record.level = .error <;> simp [h]

theorem Run.text_eq (r : Run σ) (content : String) :
    (r.text content).1 = Ending.ofResult (r.seen.text content).1 ∧
      (r.text content).2.seen = (r.seen.text content).2 := by
  unfold Run.text Seen.text Run.seen
  dsimp only
  split
  · rename_i heq
    rw [heq]
    exact ⟨rfl, rfl⟩
  · rename_i heq
    rw [heq]
    exact ⟨rfl, rfl⟩

namespace Echo

def seen (e : Echo σ) : Echo σ := { e with log := errors e.log }

theorem evaluate_seen {vars : NamedStacks} {env : Env} (h : Agrees vars env) (e : Echo σ)
    (element : Element) :
    env.evaluate e.seen element =
      ((e.evaluate vars element).1, (e.evaluate vars element).2.seen) := by
  cases element with
  | integer n => rfl
  | double x => rfl
  | string s => rfl
  | «variable» name =>
    -- The only element that looks at the stacks, and it finds what the environment says.
    rw [Env.evaluate, evaluate, h.tryPeek]
    cases env.value? name <;> rfl
  | function name =>
    simp only [Env.evaluate, evaluate]
    cases Builtin.ofName? name with
    | none => rfl
    | some op =>
      simp only [call, seen]
      cases op.call e.stack e.sink with
      | ok _ => rfl
      | error _ => rfl
  | operator op => rfl

theorem evaluateAll_seen {vars : NamedStacks} {env : Env} (h : Agrees vars env)
    (elements : List Element) :
    ∀ e : Echo σ, env.evaluateAll e.seen elements =
      ((evaluateAll vars e elements).1, (evaluateAll vars e elements).2.seen) := by
  induction elements with
  | nil => exact fun _ => rfl
  | cons element elements ih =>
    intro e
    rw [Env.evaluateAll, evaluateAll, evaluate_seen h]
    cases heval : e.evaluate vars element with
    | mk result e' =>
      cases result with
      | ok _ => exact ih e'
      | error _ => rfl

end Echo

/-- The engine evaluates an echo as the reference does, where its stacks agree with the
environment. -/
theorem Run.echo_eq {r : Run σ} {env : Env} (h : Agrees r.vars env) (elements : List Element) :
    (r.echo elements).1 = Ending.ofResult (env.echo r.seen elements).1 ∧
      (r.echo elements).2.seen = (env.echo r.seen elements).2 := by
  have hall := Echo.evaluateAll_seen h elements ⟨[], r.sink, r.log⟩
  have hstart : (⟨[], r.seen.sink, r.seen.errors⟩ : Echo σ) = Echo.seen ⟨[], r.sink, r.log⟩ := rfl
  unfold Run.echo Env.echo
  rw [hstart, hall]
  cases Echo.evaluateAll r.vars ⟨[], r.sink, r.log⟩ elements with
  | mk result e =>
    cases result with
    | error fault => exact ⟨rfl, rfl⟩
    | ok _ =>
      simp only [Echo.seen]
      cases Echo.writeAll e.sink e.stack.reverse with
      | mk written sink =>
        cases written with
        | ok _ => exact ⟨rfl, rfl⟩
        | error fault => exact ⟨rfl, rfl⟩

/-! ## One turn of a loop -/

theorem Loop.value_succ (l : Loop) (turn : Nat) : l.value (turn + 1) = l.value turn + l.stride := by
  simp only [value, Int.natCast_add, Int.natCast_one, Int.add_mul, Int.one_mul, Int.add_assoc]

namespace Ending

variable {result : Except EvalFault Unit}

theorem result_of_returned (h : .returned = ofResult result) : result = .ok () := by
  cases result with
  | ok _ => rfl
  | error _ => exact absurd h (by simp [ofResult])

theorem result_of_failed {fault : EvalFault} (h : .failed fault = ofResult result) :
    result = .error fault := by
  cases result with
  | ok _ => exact absurd h (by simp [ofResult])
  | error _ =>
    cases h
    rfl

theorem ofResult_inj {result' : Except EvalFault Unit} (h : ofResult result = ofResult result') :
    result = result' := by
  cases result with
  | ok _ => exact (result_of_returned h).symm
  | error _ => exact (result_of_failed h).symm

theorem ofResult_ne_unfinished (result : Except EvalFault Unit) :
    ofResult result ≠ .unfinished := by
  cases result <;> simp [ofResult]

end Ending

namespace Run

section

variable {σ : Type} {body : Run σ → Ending × Run σ} {name : String} {stop step : Int} {turn : Nat}
  {r r' : Run σ} {cell : Cell} {sign : Int}

/-! The four ways that a turn can go, for any cell on top. -/

theorem turns_of_error {fault : ValueFault} (hcell : r.vars.tryPeek name = some cell)
    (hc : cell.compare (.integer stop) = .error fault) (limit : Nat) :
    turns body name stop step (limit + 1) turn r = (.failed (.value fault), r) := by
  rw [turns, hcell]
  dsimp only
  rw [hc]

theorem turns_of_above {top : Cell} {vars : NamedStacks} (hcell : r.vars.tryPeek name = some cell)
    (hc : cell.compare (.integer stop) = .ok sign) (hs : ¬ sign ≤ 0)
    (hpop : r.vars.tryPop name = some (top, vars)) (limit : Nat) :
    turns body name stop step (limit + 1) turn r =
      (.returned, { r with vars }.note (.loopFinished name turn)) := by
  rw [turns, hcell]
  dsimp only
  rw [hc]
  dsimp only
  rw [if_neg hs, hpop]

theorem turns_of_ne_returned {ending : Ending} (hcell : r.vars.tryPeek name = some cell)
    (hc : cell.compare (.integer stop) = .ok sign) (hs : sign ≤ 0) (hb : body r = (ending, r'))
    (hne : ending ≠ .returned) (limit : Nat) :
    turns body name stop step (limit + 1) turn r = (ending, r') := by
  rw [turns, hcell]
  dsimp only
  rw [hc]
  dsimp only
  rw [if_pos hs, hb]
  cases ending with
  | returned => exact absurd rfl hne
  | failed fault => rfl
  | unfinished => rfl

theorem turns_of_returned {top next : Cell} {vars : NamedStacks}
    (hcell : r.vars.tryPeek name = some cell) (hc : cell.compare (.integer stop) = .ok sign)
    (hs : sign ≤ 0) (hb : body r = (.returned, r')) (hpop : r'.vars.tryPop name = some (top, vars))
    (hnext : top.increment (.integer step) = .ok next) (limit : Nat) :
    turns body name stop step (limit + 1) turn r =
      turns body name stop step limit (turn + 1) { r' with vars := vars.push name next } := by
  rw [turns, hcell]
  dsimp only
  rw [hc]
  dsimp only
  rw [if_pos hs, hb]
  dsimp only
  rw [hpop]
  dsimp only
  rw [hnext]

end

section

variable {σ : Type} {head : Loop} {turn : Nat} {env : Env} {r : Run σ}

theorem tryPeek_of_agrees (h : Agrees r.vars ((head.name, head.value turn) :: env)) :
    r.vars.tryPeek head.name = some ⟨.integer (head.value turn)⟩ := by
  rw [h.tryPeek, Env.value?, List.find?_cons_of_pos (by simp)]
  rfl

theorem increment_value (head : Loop) (turn : Nat) :
    Cell.increment ⟨.integer (head.value turn)⟩ (.integer head.stride) =
      .ok ⟨.integer (head.value (turn + 1))⟩ := by
  rw [Loop.value_succ]
  generalize head.value turn = n
  rfl

theorem value_zero (head : Loop) : head.value 0 = head.start := by
  simp [Loop.value]

theorem loop_of_refused (hr : head.Refused) (limit : Nat) (body : Run σ → Ending × Run σ) :
    loop limit head body r = (.failed (.loopStep head.stride head.source), r) := by
  unfold loop
  exact if_pos hr

theorem loop_of_not_refused (hr : ¬ head.Refused) (limit : Nat) (body : Run σ → Ending × Run σ) :
    loop limit head body r = turns body head.name head.stop head.stride limit 0
      { r with vars := r.vars.push head.name ⟨.integer (head.value 0)⟩ } := by
  rw [value_zero]
  unfold loop
  exact if_neg hr

end

end Run

/-! ## The engine follows the reference -/

variable {σ : Type} [Sink σ]

namespace Run

/-- What the reference derives for each run of a body that ends. -/
def Follows (body : Run σ → Ending × Run σ) (nodes : List Node) : Prop :=
  ∀ env r result r', Agrees r.vars env → body r = (Ending.ofResult result, r') →
    Reference env (.nodes nodes) r.seen result r'.seen

omit [Sink σ] in
theorem seen_loopFinished (r : Run σ) (vars : NamedStacks) (name : String) (turns : Nat) :
    ({ r with vars }.note (.loopFinished name turns)).seen = r.seen := by
  simp [seen, note, errors_cons, LogRecord.level]

theorem reference_of_turns {body : Run σ → Ending × Run σ} {nodes : List Node}
    (hfollows : Follows body nodes) (hbalanced : Balanced body) {head : Loop} {env : Env}
    {result : Except EvalFault Unit} {r' : Run σ} (limit : Nat) :
    ∀ {turn : Nat} {r : Run σ}, Agrees r.vars ((head.name, head.value turn) :: env) →
      turns body head.name head.stop head.stride limit turn r = (Ending.ofResult result, r') →
        Reference env (.turns head nodes turn) r.seen result r'.seen := by
  induction limit with
  | zero =>
    intro turn r _ h
    exact absurd (Prod.mk.inj h).1.symm (Ending.ofResult_ne_unfinished result)
  | succ limit ih =>
    intro turn r hagrees h
    have hcell := tryPeek_of_agrees hagrees
    cases hc : head.compare turn with
    | error fault =>
      rw [turns_of_error hcell hc] at h
      obtain ⟨hending, rfl⟩ := Prod.mk.inj h
      rw [Ending.result_of_failed hending]
      exact .incomparable hc
    | ok sign =>
      by_cases hs : sign ≤ 0
      · cases hb : body r with
        | mk ending middle =>
        cases ending with
        | returned =>
          -- The body has left the stacks alone, so what is popped is the value of this turn.
          have hsame := hbalanced _ _ hb
          obtain ⟨vars, hpop, hvars⟩ := (hagrees.of_cells hsame).exists_tryPop
          rw [turns_of_returned hcell hc hs hb hpop (increment_value head turn)] at h
          have hrest := ih (r := { middle with vars := vars.push head.name _ }) (hvars.push _ _) h
          exact .turn hc hs (hfollows _ _ (.ok ()) _ hagrees hb) hrest
        | failed fault =>
          rw [turns_of_ne_returned hcell hc hs hb (by simp)] at h
          obtain ⟨hending, rfl⟩ := Prod.mk.inj h
          rw [Ending.result_of_failed hending]
          exact .broken hc hs (hfollows _ _ (.error fault) _ hagrees hb)
        | unfinished =>
          rw [turns_of_ne_returned hcell hc hs hb (by simp)] at h
          exact absurd (Prod.mk.inj h).1.symm (Ending.ofResult_ne_unfinished result)
      · obtain ⟨vars, hpop, -⟩ := hagrees.exists_tryPop
        rw [turns_of_above hcell hc hs hpop] at h
        obtain ⟨hending, rfl⟩ := Prod.mk.inj h
        rw [Ending.result_of_returned hending, seen_loopFinished]
        exact .finished hc hs

mutual

theorem reference_of_visit (limit : Nat) :
    ∀ (n : Node) (env : Env) (r : Run σ) (result : Except EvalFault Unit) (r' : Run σ),
      Agrees r.vars env → visit limit n r = (Ending.ofResult result, r') →
        Reference env (.node n) r.seen result r'.seen
  | .document children, env, r, result, r', hagrees, h =>
    .document (reference_of_visitAll limit children env r result r' hagrees h)
  | .text content, env, r, result, r', hagrees, h => by
    rw [visit] at h
    obtain ⟨hending, hseen⟩ := text_eq r content
    rw [h] at hending hseen
    rw [Ending.ofResult_inj hending, hseen]
    exact .text content r.seen
  | .echo elements, env, r, result, r', hagrees, h => by
    rw [visit] at h
    obtain ⟨hending, hseen⟩ := echo_eq hagrees elements
    rw [h] at hending hseen
    rw [Ending.ofResult_inj hending, hseen]
    exact .echo env elements r.seen
  | .forLoop head body, env, r, result, r', hagrees, h => by
    rw [visit] at h
    by_cases hr : head.Refused
    · rw [loop_of_refused hr] at h
      obtain ⟨hending, rfl⟩ := Prod.mk.inj h
      rw [Ending.result_of_failed hending]
      exact .refused hr
    · rw [loop_of_not_refused hr] at h
      have hfollows : Follows (fun r => visitAll limit body r) body :=
        fun env r result r' hagrees h => reference_of_visitAll limit body env r result r' hagrees h
      have hturns := reference_of_turns (r := ⟨r.sink, r.vars.push head.name _, r.log⟩) hfollows
        (visitAll_balanced limit body) limit (hagrees.push head.name _) h
      exact .loop hr hturns

theorem reference_of_visitAll (limit : Nat) :
    ∀ (ns : List Node) (env : Env) (r : Run σ) (result : Except EvalFault Unit) (r' : Run σ),
      Agrees r.vars env → visitAll limit ns r = (Ending.ofResult result, r') →
        Reference env (.nodes ns) r.seen result r'.seen
  | [], env, r, result, r', hagrees, h => by
    rw [visitAll] at h
    obtain ⟨hending, rfl⟩ := Prod.mk.inj h
    rw [Ending.result_of_returned hending]
    exact .nil
  | n :: ns, env, r, result, r', hagrees, h => by
    rw [visitAll] at h
    cases hn : visit limit n r with
    | mk ending middle =>
    rw [hn] at h
    cases ending with
    | returned =>
      have hmiddle := hagrees.of_cells (visit_balanced limit n _ _ hn)
      exact .cons (reference_of_visit limit n env r (.ok ()) middle hagrees hn)
        (reference_of_visitAll limit ns env middle result r' hmiddle h)
    | failed fault =>
      obtain ⟨hending, rfl⟩ := Prod.mk.inj h
      rw [Ending.result_of_failed hending]
      exact .failed (reference_of_visit limit n env r (.error fault) middle hagrees hn)
    | unfinished => exact absurd (Prod.mk.inj h).1.symm (Ending.ofResult_ne_unfinished result)

end

end Run

/-! ## Where the reference ends, the engine ends -/

namespace Task

/-- Runs a task on the engine. A loop that is under way has `fuel` turns left. -/
def run (limit fuel : Nat) : Task → Run σ → Ending × Run σ
  | node n, r => Run.visit limit n r
  | nodes ns, r => Run.visitAll limit ns r
  | turns head body turn, r =>
    Run.turns (fun r => Run.visitAll limit body r) head.name head.stop head.stride fuel turn r

/-- The environment that the stacks hold when a task starts. A loop that is under way has its
value on top. -/
def scope (env : Env) : Task → Env
  | turns head _ turn => (head.name, head.value turn) :: env
  | _ => env

/-- With the limit, or any greater one, the engine ends the task with the result, and then `o'` is
seen. -/
def Ends (limit : Nat) (task : Task) (env : Env) (o : Seen σ) (result : Except EvalFault Unit)
    (o' : Seen σ) : Prop :=
  ∀ more ≥ limit, ∀ fuel ≥ limit, ∀ r : Run σ, Agrees r.vars (task.scope env) → r.seen = o →
    ∃ r', task.run more fuel r = (Ending.ofResult result, r') ∧ r'.seen = o'

end Task

namespace Reference

theorem exists_limit {env : Env} {task : Task} {o o' : Seen σ} {result : Except EvalFault Unit}
    (h : Reference env task o result o') : ∃ limit, task.Ends limit env o result o' := by
  induction h with
  | document _ ih =>
    obtain ⟨limit, ih⟩ := ih
    exact ⟨limit, ih⟩
  | text content o =>
    refine ⟨0, fun more _ fuel _ r _ hseen => ?_⟩
    obtain ⟨hending, hafter⟩ := r.text_eq content
    rw [hseen] at hending hafter
    exact ⟨_, Prod.ext hending rfl, hafter⟩
  | echo env elements o =>
    refine ⟨0, fun more _ fuel _ r hagrees hseen => ?_⟩
    obtain ⟨hending, hafter⟩ := Run.echo_eq hagrees elements
    rw [hseen] at hending hafter
    exact ⟨_, Prod.ext hending rfl, hafter⟩
  | refused hr =>
    refine ⟨0, fun more _ fuel _ r _ hseen => ⟨r, ?_, hseen⟩⟩
    exact Run.loop_of_refused hr _ _
  | @loop env head body o o' result hr _ ih =>
    -- A loop is given as many turns as each loop of its body.
    obtain ⟨limit, ih⟩ := ih
    refine ⟨limit, fun more hmore fuel _ r hagrees hseen => ?_⟩
    obtain ⟨r', hrun, hafter⟩ := ih more hmore more hmore
      ⟨r.sink, r.vars.push head.name ⟨.integer (head.value 0)⟩, r.log⟩ (hagrees.push _ _) hseen
    refine ⟨r', ?_, hafter⟩
    rw [← hrun]
    exact Run.loop_of_not_refused hr _ _
  | nil => exact ⟨0, fun more _ fuel _ r _ hseen => ⟨r, rfl, hseen⟩⟩
  | @cons env n ns o o' o'' result _ _ ihn ihns =>
    obtain ⟨limit, ihn⟩ := ihn
    obtain ⟨limit', ihns⟩ := ihns
    refine ⟨max limit limit', fun more hmore fuel _ r hagrees hseen => ?_⟩
    have hle : limit ≤ more := by omega
    have hle' : limit' ≤ more := by omega
    obtain ⟨middle, hn, hmiddle⟩ := ihn more hle more hle r hagrees hseen
    -- The first node leaves the cells alone, so the environment is still the one to go on with.
    have hsame := hagrees.of_cells (Run.visit_balanced more n _ _ hn)
    obtain ⟨r', hns, hafter⟩ := ihns more hle' more hle' middle hsame hmiddle
    refine ⟨r', ?_, hafter⟩
    rw [Task.run, Run.visitAll, show Run.visit more n r = _ from hn]
    exact hns
  | @failed env n ns o o' fault _ ih =>
    obtain ⟨limit, ih⟩ := ih
    refine ⟨limit, fun more hmore fuel _ r hagrees hseen => ?_⟩
    obtain ⟨r', hn, hafter⟩ := ih more hmore more hmore r hagrees hseen
    refine ⟨r', ?_, hafter⟩
    rw [Task.run, Run.visitAll, show Run.visit more n r = _ from hn]
    rfl
  | incomparable hc =>
    refine ⟨1, fun more _ fuel hfuel r hagrees hseen => ⟨r, ?_, hseen⟩⟩
    obtain ⟨fuel, rfl⟩ := Nat.exists_eq_add_of_le' hfuel
    exact Run.turns_of_error (Run.tryPeek_of_agrees hagrees) hc fuel
  | finished hc hs =>
    refine ⟨1, fun more _ fuel hfuel r hagrees hseen => ?_⟩
    obtain ⟨fuel, rfl⟩ := Nat.exists_eq_add_of_le' hfuel
    obtain ⟨vars, hpop, -⟩ := hagrees.exists_tryPop
    refine ⟨_, Run.turns_of_above (Run.tryPeek_of_agrees hagrees) hc hs hpop fuel, ?_⟩
    rw [Run.seen_loopFinished, hseen]
  | @turn env head body turn o o' o'' sign result hc hs _ _ ihb iht =>
    obtain ⟨limit, ihb⟩ := ihb
    obtain ⟨limit', iht⟩ := iht
    -- The turn takes one off what the loop is given, but nothing off what its body is given.
    refine ⟨max limit limit' + 1, fun more hmore fuel hfuel r hagrees hseen => ?_⟩
    obtain ⟨fuel, rfl⟩ := Nat.exists_eq_add_of_le' (Nat.le_of_add_left_le hfuel)
    have hle : limit ≤ more := by omega
    have hle' : limit' ≤ more := by omega
    obtain ⟨middle, hb, hmiddle⟩ := ihb more hle more hle r hagrees hseen
    have hsame := hagrees.of_cells (Run.visitAll_balanced more body _ _ hb)
    obtain ⟨vars, hpop, hvars⟩ := hsame.exists_tryPop
    obtain ⟨r', hrest, hafter⟩ := iht more hle' fuel (by omega)
      ⟨middle.sink, vars.push head.name ⟨.integer (head.value (turn + 1))⟩, middle.log⟩
      (hvars.push _ _) hmiddle
    refine ⟨r', ?_, hafter⟩
    rw [← hrest]
    exact Run.turns_of_returned (Run.tryPeek_of_agrees hagrees) hc hs hb hpop
      (Run.increment_value head turn) fuel
  | @broken env head body turn o o' sign fault hc hs _ ih =>
    obtain ⟨limit, ih⟩ := ih
    refine ⟨limit + 1, fun more hmore fuel hfuel r hagrees hseen => ?_⟩
    obtain ⟨fuel, rfl⟩ := Nat.exists_eq_add_of_le' (Nat.le_of_add_left_le hfuel)
    have hle : limit ≤ more := by omega
    obtain ⟨r', hb, hafter⟩ := ih more hle more hle r hagrees hseen
    have hne : Ending.ofResult (.error fault) ≠ .returned := by simp [Ending.ofResult]
    exact ⟨r', Run.turns_of_ne_returned (Run.tryPeek_of_agrees hagrees) hc hs hb hne fuel, hafter⟩

end Reference

/-! ## Runs of one engine -/

namespace Engine

/-- How so many runs of an engine end, one after the other, and what is seen after each. A run goes
on with the sink and the log that the one before it has left, however that one has ended. -/
def executions (limit : Nat) : Nat → Engine σ → List LogRecord → List (Ending × Seen σ)
  | 0, _, _ => []
  | count + 1, e, log =>
    let (ending, r) := e.execute limit log
    (ending, r.seen) :: executions limit count { e with sink := r.sink } r.log

def seen (e : Engine σ) (log : List LogRecord) : Seen σ := ⟨e.sink, errors log⟩

end Engine

def ended (outcome : Except EvalFault Unit × Seen σ) : Ending × Seen σ :=
  (Ending.ofResult outcome.1, outcome.2)

/-- Results of the reference, run over and over, each beside what is seen then. Every run starts
with no variables. -/
inductive Series (document : Node) : Seen σ → List (Except EvalFault Unit × Seen σ) → Prop
  | nil (o : Seen σ) : Series document o []
  | cons {o o' : Seen σ} {result : Except EvalFault Unit}
      {outcomes : List (Except EvalFault Unit × Seen σ)}
      (h : Reference [] (.node document) o result o') (hrest : Series document o' outcomes) :
      Series document o ((result, o') :: outcomes)

namespace Engine

omit [Sink σ] in
/-- What an engine shows after a run is what the next one begins with. The sink and the log are kept
from one run to the next, and the stacks are not: each run begins with empty ones. -/
theorem seen_next (e : Engine σ) (r : Run σ) : seen { e with sink := r.sink } r.log = r.seen := rfl

theorem executions_succ {limit : Nat} {e : Engine σ} {log : List LogRecord} {ending : Ending}
    {r : Run σ} (h : e.execute limit log = (ending, r)) (count : Nat) :
    e.executions limit (count + 1) log =
      (ending, r.seen) :: executions limit count { e with sink := r.sink } r.log := by
  rw [executions, h]

theorem reference_of_execute {limit : Nat} {e : Engine σ} {log : List LogRecord}
    {result : Except EvalFault Unit} {r' : Run σ}
    (h : e.execute limit log = (Ending.ofResult result, r')) :
    Reference [] (.node e.document) (e.seen log) result r'.seen :=
  Run.reference_of_visit limit e.document [] _ result r' .empty h

theorem series_of_executions {limit : Nat} (outcomes : List (Except EvalFault Unit × Seen σ)) :
    ∀ {e : Engine σ} {log : List LogRecord},
      e.executions limit outcomes.length log = outcomes.map ended →
        Series e.document (e.seen log) outcomes := by
  induction outcomes with
  | nil => exact fun _ => .nil _
  | cons outcome outcomes ih =>
    intro e log h
    obtain ⟨result, o'⟩ := outcome
    cases hrun : e.execute limit log with
    | mk ending r =>
      -- What is seen after a run is what the next one starts with.
      rw [List.length_cons, executions_succ hrun, List.map_cons, ended] at h
      obtain ⟨hfirst, hrest⟩ := List.cons.inj h
      obtain ⟨rfl, rfl⟩ := Prod.mk.inj hfirst
      have hnext := ih hrest
      rw [seen_next] at hnext
      exact .cons (reference_of_execute hrun) hnext

/-- A series is run within some limit, and within any greater one. Each of its runs has a limit of
its own, and the greatest of them will do for all. -/
theorem exists_executions {document : Node} {o : Seen σ}
    {outcomes : List (Except EvalFault Unit × Seen σ)} (h : Series document o outcomes) :
    ∃ limit, ∀ more ≥ limit, ∀ (e : Engine σ) (log : List LogRecord), e.document = document →
      e.seen log = o → e.executions more outcomes.length log = outcomes.map ended := by
  induction h with
  | nil o => exact ⟨0, fun _ _ _ _ _ _ => rfl⟩
  | @cons o o' result outcomes h _ ih =>
    obtain ⟨limit, hends⟩ := h.exists_limit
    obtain ⟨limit', ih⟩ := ih
    refine ⟨max limit limit', fun more hmore e log hdocument hseen => ?_⟩
    have hle : limit ≤ more := by omega
    have hle' : limit' ≤ more := by omega
    obtain ⟨r, hrun, hafter⟩ :=
      hends more hle more hle ⟨e.sink, .empty, .executing :: log⟩ .empty hseen
    rw [← hdocument] at hrun
    have hrest := ih more hle' { e with sink := r.sink } r.log hdocument hafter
    rw [List.length_cons, executions_succ hrun, hrest, List.map_cons, ended, hafter]

end Engine

/-- Runs of one engine, one after the other, end as the reference does: with its results, its sinks
and its errors, which each run adds to what the runs before it have left. Where the reference ends,
so does the engine, within some limit and within any greater one. And a visit that returns, of any
node in any run, leaves under every name the values that were there. -/
theorem Engine.executions_scoped (e : Engine σ) (log : List LogRecord)
    (outcomes : List (Except EvalFault Unit × Seen σ)) :
    ((∃ limit, e.executions limit outcomes.length log = outcomes.map ended) ↔
        Series e.document (e.seen log) outcomes) ∧
      (Series e.document (e.seen log) outcomes →
        ∃ limit, ∀ more ≥ limit, e.executions more outcomes.length log = outcomes.map ended) ∧
      ∀ (limit : Nat) (n : Node) (r r' : Run σ), Run.visit limit n r = (.returned, r') →
        ∀ name, r'.vars.cells name = r.vars.cells name := by
  have henough (h : Series e.document (e.seen log) outcomes) :
      ∃ limit, ∀ more ≥ limit, e.executions more outcomes.length log = outcomes.map ended := by
    obtain ⟨limit, hends⟩ := exists_executions h
    exact ⟨limit, fun more hmore => hends more hmore e log rfl rfl⟩
  refine ⟨⟨?_, ?_⟩, henough, fun limit n r r' => Run.visit_balanced limit n r r'⟩
  · rintro ⟨limit, h⟩
    exact series_of_executions outcomes h
  · intro h
    obtain ⟨limit, hends⟩ := henough h
    exact ⟨limit, hends limit (Nat.le_refl limit)⟩

/-- Loops over the same name, one in the other, with an echo of the name in each and behind both. -/
def shadowing : Node :=
  .document [
    .forLoop ⟨"i", 1, 2, none⟩ [
      .forLoop ⟨"i", 7, 7, none⟩ [.echo [.variable "i"]],
      .echo [.variable "i"]],
    .echo [.variable "i"]]

/-- The inner loop hides the value of the outer one, which is back after it. Behind both loops the
name has no value: the run fails there, and the next run starts anew. -/
theorem Engine.executions_scoped_shadowing :
    ∃ (sink : TextSink) (outcomes : List (Except EvalFault Unit × Seen TextSink)),
      outcomes.map (fun outcome => (outcome.1, outcome.2.sink.body)) =
        [(.error (.noVariable "i"), "7172"), (.error (.noVariable "i"), "71727172")] ∧
      Series shadowing ⟨sink, []⟩ outcomes ∧
      ∃ limit, ∀ more ≥ limit, Engine.executions more 2 ⟨shadowing, sink⟩ [] =
        outcomes.map ended := by
  refine ⟨.start (.start .empty .empty) "UTF-8",
    [(.error (.noVariable "i"), ⟨⟨.start .empty .empty, "UTF-8", "text/html", "7172"⟩, []⟩),
      (.error (.noVariable "i"), ⟨⟨.start .empty .empty, "UTF-8", "text/html", "71727172"⟩, []⟩)],
    rfl, ?_⟩
  obtain ⟨hiff, henough, -⟩ := Engine.executions_scoped
    ⟨shadowing, TextSink.start (.start .empty .empty) "UTF-8"⟩ []
    [(.error (.noVariable "i"), ⟨⟨.start .empty .empty, "UTF-8", "text/html", "7172"⟩, []⟩),
      (.error (.noVariable "i"), ⟨⟨.start .empty .empty, "UTF-8", "text/html", "71727172"⟩, []⟩)]
  have hseries := hiff.1 ⟨3, by decide +kernel⟩
  exact ⟨hseries, henough hseries⟩

end Stencil
