import Stencil.Render.Engine

/-!
# Running trees by lexical scope

The engine keeps the values of variables on stacks that loops push and pop. `Reference` runs trees
without any stack: it passes an environment down the tree, which grows for the body of a loop and
is never changed. What it shares with the engine is how a text is written, how values are
compared, and all elements but the variables.

The reference has no limit of turns. It derives nothing for a tree that runs on for ever, and never
two results for one tree (`Reference.unique`).
-/

set_option autoImplicit false

namespace Stencil

/-! ## Environments -/

/-- The variables in scope with their values, innermost first. A loop puts its entry in front for
the visits to its body and nothing takes one off again: scopes end because the environment is handed
down and not changed. -/
abbrev Env := List (String × Int)

def Env.value? (env : Env) (name : String) : Option Int :=
  (env.find? (·.1 == name)).map Prod.snd

/-! ## What a run shows -/

def errors (log : List LogRecord) : List LogRecord := log.filter (·.level = .error)

/-- What can be seen of a run: its sink, and the errors that it logged. The other records tell of
the engine's own progress, which a reference need not make. -/
structure Seen (σ : Type) where
  sink : σ
  errors : List LogRecord
deriving DecidableEq

variable {σ : Type} [Sink σ]

def Run.seen (r : Run σ) : Seen σ := ⟨r.sink, errors r.log⟩

def Ending.ofResult : Except EvalFault Unit → Ending
  | .ok () => .returned
  | .error fault => .failed fault

/-! ## The reference -/

namespace Env

/-- Evaluates an element. Only variables need the environment; what else there is, the engine and
the reference do by the same definitions. -/
def evaluate (env : Env) (e : Echo σ) : Element → Except EvalFault Unit × Echo σ
  | .variable name =>
    match env.value? name with
    | some n => e.push (.integer n)
    | none => (.error (.noVariable name), e)
  | element => e.evaluate .empty element

def evaluateAll (env : Env) (e : Echo σ) : List Element → Except EvalFault Unit × Echo σ
  | [] => (.ok (), e)
  | element :: rest =>
    match env.evaluate e element with
    | (.ok (), e) => evaluateAll env e rest
    | (.error fault, e) => (.error fault, e)

/-- Evaluates an echo and writes its stack from the bottom up. -/
def echo (env : Env) (o : Seen σ) (elements : List Element) :
    Except EvalFault Unit × Seen σ :=
  match env.evaluateAll ⟨[], o.sink, o.errors⟩ elements with
  | (.error fault, e) => (.error fault, ⟨e.sink, e.log⟩)
  | (.ok (), e) =>
    let (result, sink) := Echo.writeAll e.sink e.stack.reverse
    (result, ⟨sink, e.log⟩)

end Env

def Seen.text (o : Seen σ) (content : String) : Except EvalFault Unit × Seen σ :=
  let (result, sink) := Sink.write o.sink content
  (result.mapError .sink, { o with sink })

namespace Loop

/-- By how much the value of a loop grows from turn to turn. -/
def stride (l : Loop) : Int := l.step.getD Run.defaultStep

/-- The value of a loop in a turn, counted from 0. It is exact, as the engine adds whole numbers;
only its comparison with the end is not. -/
def value (l : Loop) (turn : Nat) : Int := l.start + turn * l.stride

/-- How the value of a turn compares with the end, both as doubles. -/
def compare (l : Loop) (turn : Nat) : Except ValueFault Int :=
  Cell.compare ⟨.integer (l.value turn)⟩ (.integer l.stop)

/-- Whether a loop is refused: its step leads nowhere, and it would have a turn. -/
def Refused (l : Loop) : Prop := l.stride ≤ 0 ∧ l.start ≤ l.stop

end Loop

/-- What there is to run: a node, nodes in order, or a loop from one of its turns on. One relation
over tasks does for three that would be defined by each other. -/
inductive Task where
  | node (n : Node)
  | nodes (ns : List Node)
  | turns (head : Loop) (body : List Node) (turn : Nat)

/-- `Reference env task o result o'`: under the environment, the task starts where `o` is seen, ends
with the result, and then `o'` is seen. -/
inductive Reference : Env → Task → Seen σ → Except EvalFault Unit → Seen σ → Prop
  | document {env : Env} {children : List Node} {o o' : Seen σ} {result : Except EvalFault Unit}
      (h : Reference env (.nodes children) o result o') :
      Reference env (.node (.document children)) o result o'
  | text {env : Env} (content : String) (o : Seen σ) :
      Reference env (.node (.text content)) o (o.text content).1 (o.text content).2
  | echo (env : Env) (elements : List Element) (o : Seen σ) :
      Reference env (.node (.echo elements)) o (env.echo o elements).1 (env.echo o elements).2
  | refused {env : Env} {head : Loop} {body : List Node} {o : Seen σ} (hr : head.Refused) :
      Reference env (.node (.forLoop head body)) o (.error (.loopStep head.stride head.source)) o
  | loop {env : Env} {head : Loop} {body : List Node} {o o' : Seen σ}
      {result : Except EvalFault Unit} (hr : ¬ head.Refused)
      (h : Reference env (.turns head body 0) o result o') :
      Reference env (.node (.forLoop head body)) o result o'
  | nil {env : Env} {o : Seen σ} : Reference env (.nodes []) o (.ok ()) o
  | cons {env : Env} {n : Node} {ns : List Node} {o o' o'' : Seen σ}
      {result : Except EvalFault Unit} (hn : Reference env (.node n) o (.ok ()) o')
      (hns : Reference env (.nodes ns) o' result o'') :
      Reference env (.nodes (n :: ns)) o result o''
  | failed {env : Env} {n : Node} {ns : List Node} {o o' : Seen σ} {fault : EvalFault}
      (hn : Reference env (.node n) o (.error fault) o') :
      Reference env (.nodes (n :: ns)) o (.error fault) o'
  | incomparable {env : Env} {head : Loop} {body : List Node} {turn : Nat} {o : Seen σ}
      {fault : ValueFault} (hc : head.compare turn = .error fault) :
      Reference env (.turns head body turn) o (.error (.value fault)) o
  | finished {env : Env} {head : Loop} {body : List Node} {turn : Nat} {o : Seen σ} {sign : Int}
      (hc : head.compare turn = .ok sign) (hs : ¬ sign ≤ 0) :
      Reference env (.turns head body turn) o (.ok ()) o
  | turn {env : Env} {head : Loop} {body : List Node} {turn : Nat} {o o' o'' : Seen σ}
      {sign : Int} {result : Except EvalFault Unit} (hc : head.compare turn = .ok sign)
      (hs : sign ≤ 0)
      (hb : Reference ((head.name, head.value turn) :: env) (.nodes body) o (.ok ()) o')
      (ht : Reference env (.turns head body (turn + 1)) o' result o'') :
      Reference env (.turns head body turn) o result o''
  | broken {env : Env} {head : Loop} {body : List Node} {turn : Nat} {o o' : Seen σ}
      {sign : Int} {fault : EvalFault} (hc : head.compare turn = .ok sign) (hs : sign ≤ 0)
      (hb : Reference ((head.name, head.value turn) :: env) (.nodes body) o (.error fault) o') :
      Reference env (.turns head body turn) o (.error fault) o'

/-- There is one way to run a task at most: what it is, and how the value of a turn compares, say
which rule derives it. -/
theorem Reference.unique {env : Env} {task : Task} {o o₁ o₂ : Seen σ}
    {result result' : Except EvalFault Unit} (h : Reference env task o result o₁)
    (h' : Reference env task o result' o₂) : result = result' ∧ o₁ = o₂ := by
  -- Two rules for one task differ in how a value compares or in how the first part ends, and
  -- neither has two outcomes.
  induction h generalizing result' o₂ with
  | document _ ih =>
    cases h' with
    | document h' => exact ih h'
  | text content o =>
    cases h'
    exact ⟨rfl, rfl⟩
  | echo env elements o =>
    cases h'
    exact ⟨rfl, rfl⟩
  | refused hr =>
    cases h' with
    | refused _ => exact ⟨rfl, rfl⟩
    | loop hr' _ => exact absurd hr hr'
  | loop hr _ ih =>
    cases h' with
    | refused hr' => exact absurd hr' hr
    | loop _ h' => exact ih h'
  | nil =>
    cases h'
    exact ⟨rfl, rfl⟩
  | cons _ _ ihn ihns =>
    cases h' with
    | cons hn' hns' =>
      obtain ⟨-, rfl⟩ := ihn hn'
      exact ihns hns'
    | failed hn' => exact absurd (ihn hn').1 (by simp)
  | failed _ ih =>
    cases h' with
    | cons hn' _ => exact absurd (ih hn').1 (by simp)
    | failed hn' => exact ih hn'
  | incomparable hc =>
    cases h' with
    | incomparable hc' =>
      rw [hc] at hc'
      cases hc'
      exact ⟨rfl, rfl⟩
    | finished hc' _ => exact absurd (hc.symm.trans hc') (by simp)
    | turn hc' _ _ _ => exact absurd (hc.symm.trans hc') (by simp)
    | broken hc' _ _ => exact absurd (hc.symm.trans hc') (by simp)
  | finished hc hs =>
    cases h' with
    | incomparable hc' => exact absurd (hc.symm.trans hc') (by simp)
    | finished _ _ => exact ⟨rfl, rfl⟩
    | turn hc' hs' _ _ => exact absurd (Except.ok.inj (hc.symm.trans hc') ▸ hs') hs
    | broken hc' hs' _ => exact absurd (Except.ok.inj (hc.symm.trans hc') ▸ hs') hs
  | turn hc hs _ _ ihb iht =>
    cases h' with
    | incomparable hc' => exact absurd (hc.symm.trans hc') (by simp)
    | finished hc' hs' => exact absurd (Except.ok.inj (hc.symm.trans hc') ▸ hs) hs'
    | turn _ _ hb' ht' =>
      obtain ⟨-, rfl⟩ := ihb hb'
      exact iht ht'
    | broken _ _ hb' => exact absurd (ihb hb').1 (by simp)
  | broken hc hs _ ih =>
    cases h' with
    | incomparable hc' => exact absurd (hc.symm.trans hc') (by simp)
    | finished hc' hs' => exact absurd (Except.ok.inj (hc.symm.trans hc') ▸ hs) hs'
    | turn _ _ hb' _ => exact absurd (ih hb').1 (by simp)
    | broken _ _ hb' =>
      obtain ⟨hfault, rfl⟩ := ih hb'
      exact ⟨hfault, rfl⟩

end Stencil
