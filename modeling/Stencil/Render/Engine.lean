import Stencil.Missing
import Stencil.Node.Parser
import Stencil.Render.Echo
import Stencil.Sink.TextSink

/-!
# Running a template

The nodes of a tree are visited in order: a text is written, an echo is evaluated and its stack
written from the bottom up, and a loop visits its body once for each value of its variable. That
value is kept on the stack of the variable's name for as long as the loop lasts, and is taken off
and put back between two turns.

A loop compares its value with its end as doubles, so it need not come to an end. A run is
therefore given a limit of turns for each loop, and `Ending.unfinished` says that the limit was
met; a limit never changes a run that ends within it.
-/

set_option autoImplicit false

namespace Stencil

/-- How a run ends. What it did up to there is kept with every ending: a failure takes nothing back,
neither from the sink nor from the stacks of variables. -/
inductive Ending where
  | returned
  | failed (fault : EvalFault)
  | unfinished
deriving DecidableEq

/-- A run: where it writes, the values of its variables, and its log with the newest record first.
-/
structure Run (σ : Type) where
  sink : σ
  vars : NamedStacks
  log : List LogRecord

namespace Run

variable {σ : Type} [Sink σ]

def note (r : Run σ) (record : LogRecord) : Run σ := { r with log := record :: r.log }

def text (r : Run σ) (content : String) : Ending × Run σ :=
  match Sink.write r.sink content with
  | (.ok (), sink) => (.returned, { r with sink })
  | (.error fault, sink) => (.failed (.sink fault), { r with sink })

/-- Evaluates an echo and writes its stack. Nothing is written unless all elements were evaluated; a
value that can not be written still leaves those below it written. -/
def echo (r : Run σ) (elements : List Element) : Ending × Run σ :=
  match Echo.evaluateAll r.vars ⟨[], r.sink, r.log⟩ elements with
  | (.error fault, e) => (.failed fault, { r with sink := e.sink, log := e.log })
  | (.ok (), e) =>
    match Echo.writeAll e.sink e.stack.reverse with
    | (.ok (), sink) => (.returned, { r with sink, log := e.log })
    | (.error fault, sink) => (.failed fault, { r with sink, log := e.log })

/-- Visits the body of a loop as long as the value of its variable is not above its end. The value
is looked up by name on each turn, as a body may run a loop over the same name, which leaves that
stack as it found it. The limit counts down, and the turns are counted up for the record of the end.
-/
def turns (body : Run σ → Ending × Run σ) (name : String) (stop step : Int) :
    Nat → Nat → Run σ → Ending × Run σ
  | 0, _, r => (.unfinished, r)
  | limit + 1, done, r =>
    match r.vars.tryPeek name with
    | none => (.failed (.noVariable name), r)
    | some cell =>
      match cell.compare (.integer stop) with
      | .error fault => (.failed (.value fault), r)
      | .ok sign =>
        -- A sign of doubles: a start above the end can have the sign 0.
        if sign ≤ 0 then
          match body r with
          | (.returned, r) =>
            match r.vars.tryPop name with
            | none => (.failed (.noVariable name), r)
            | some (cell, vars) =>
              match cell.increment (.integer step) with
              | .error fault => (.failed (.value fault), { r with vars })
              | .ok cell => turns body name stop step limit (done + 1)
                  { r with vars := vars.push name cell }
          | (ending, r) => (ending, r)
        else
          match r.vars.tryPop name with
          | none => (.failed (.noVariable name), r)
          | some (_, vars) => (.returned, { r with vars }.note (.loopFinished name done))

def defaultStep : Int := 1

/-- Runs a loop. A step that leads nowhere is refused, unless the loop has no turn anyway. Here the
bounds are compared as integers, unlike in `turns`. -/
def loop (limit : Nat) (head : Loop) (body : Run σ → Ending × Run σ) (r : Run σ) : Ending × Run σ :=
  let step := head.step.getD defaultStep
  if step ≤ 0 ∧ head.start ≤ head.stop then (.failed (.loopStep step head.source), r)
  else
    turns body head.name head.stop step limit 0
      { r with vars := r.vars.push head.name ⟨.integer head.start⟩ }

mutual

/-- Visits a node. The body of a loop is given to it as what visiting its nodes does to a run. -/
def visit (limit : Nat) : Node → Run σ → Ending × Run σ
  | .document children, r => visitAll limit children r
  | .text content, r => r.text content
  | .echo elements, r => r.echo elements
  | .forLoop head body, r => loop limit head (fun r => visitAll limit body r) r

def visitAll (limit : Nat) : List Node → Run σ → Ending × Run σ
  | [], r => (.returned, r)
  | n :: ns, r =>
    match visit limit n r with
    | (.returned, r) => visitAll limit ns r
    | (ending, r) => (ending, r)

end

end Run

/-- The turns that a loop is given if nobody says otherwise, which is more than a loop can do in a
lifetime. -/
def turnLimit : Nat := Nat.pow 10 18

/-- A tree and the sink that it is run into. Each run starts with no values of variables, so what a
failed run left on their stacks is not seen by the next one. -/
structure Engine (σ : Type) where
  document : Node
  sink : σ

namespace Engine

variable {σ : Type} [Sink σ]

def ofParts (document : Option Node) (sink : Option σ) : Except Missing (Engine σ) :=
  match document, sink with
  | some document, some sink => .ok ⟨document, sink⟩
  | _, _ => .error .documentOrSink

def execute (limit : Nat) (e : Engine σ) (log : List LogRecord) : Ending × Run σ :=
  Run.visit limit e.document ⟨e.sink, .empty, .executing :: log⟩

end Engine

/-! ## Templates as texts -/

/-- Reads a template and runs it into a sink. A template that can not be read leaves the sink alone,
as all of it is read before any of it is run. -/
def render {σ : Type} [Sink σ] (limit : Nat) (template : String) (sink : σ) :
    Except ParseError (Ending × Run σ) :=
  (parse template).map fun document =>
    (Engine.mk document sink).execute limit [.parsed document.children.length]

def renderText (limit : Nat) (template : String) (request persistent : Dictionary String) :
    Except ParseError (Ending × Run TextSink) :=
  render limit template (TextSink.start (.start request persistent) "UTF-8")

end Stencil
