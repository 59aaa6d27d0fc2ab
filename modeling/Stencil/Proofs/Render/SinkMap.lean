import Stencil.Proofs.Builtin.Plan
import Stencil.Proofs.Steps
import Stencil.Render.Engine

/-!
# Runs and maps of sinks

A run learns nothing of its sink but the parameters and whether a call fails. A map that respects
the calls to a sink therefore respects whole runs: they end alike, with the same variables and the
same log (`render_map`). With the sinks that have a property in place of all, this says that a run
keeps what each call keeps (`SinkInvariant.render`).
-/

set_option autoImplicit false

namespace Stencil

/-- A map of sinks that respects the calls to them. A run into one sink is then the image of a run
into the other, so a sink that notes more than another one needs no semantics of its own. -/
structure SinkMap {σ τ : Type} [Sink σ] [Sink τ] (f : τ → σ) : Prop where
  write : ∀ t text, Sink.write (f t) text = Prod.map id f (Sink.write t text)
  setMimeType : ∀ t mimeType,
    Sink.setMimeType (f t) mimeType = (Sink.setMimeType t mimeType).map f
  scopes : ∀ t, Sink.scopes (f t) = Sink.scopes t
  withScopes : ∀ t scopes, Sink.withScopes (f t) scopes = f (Sink.withScopes t scopes)

/-- The sinks take every text that is written to them. -/
def Accepts (σ : Type) [Sink σ] : Prop := ∀ (s : σ) (text : String), (Sink.write s text).1 = .ok ()

theorem TextSink.accepts : Accepts TextSink := fun _ _ => rfl

/-- What each call to a sink keeps, also one that fails. A run does nothing else to its sink, and so
keeps it too. -/
structure SinkInvariant {σ : Type} [Sink σ] (P : σ → Prop) : Prop where
  write : ∀ s, P s → ∀ text, P (Sink.write s text).2
  setMimeType : ∀ s, P s → ∀ mimeType s', Sink.setMimeType s mimeType = .ok s' → P s'
  withScopes : ∀ s, P s → ∀ scopes, P (Sink.withScopes s scopes)

section

variable {σ τ : Type}

def Echo.mapSink (f : τ → σ) (e : Echo τ) : Echo σ := ⟨e.stack, f e.sink, e.log⟩

@[simp] theorem Echo.mapSink_stack (f : τ → σ) (e : Echo τ) : (e.mapSink f).stack = e.stack := rfl

@[simp] theorem Echo.mapSink_sink (f : τ → σ) (e : Echo τ) : (e.mapSink f).sink = f e.sink := rfl

def Run.mapSink (f : τ → σ) (r : Run τ) : Run σ := ⟨f r.sink, r.vars, r.log⟩

@[simp] theorem Run.mapSink_sink (f : τ → σ) (r : Run τ) : (r.mapSink f).sink = f r.sink := rfl

@[simp] theorem Run.mapSink_vars (f : τ → σ) (r : Run τ) : (r.mapSink f).vars = r.vars := rfl

/-! ## Loops -/

namespace Run

variable {f : τ → σ} {body : Run τ → Ending × Run τ} {body' : Run σ → Ending × Run σ}

theorem turns_map (hbody : ∀ r, body' (r.mapSink f) = Prod.map id (mapSink f) (body r))
    (name : String) (stop step : Int) (limit done : Nat) (r : Run τ) :
    turns body' name stop step limit done (r.mapSink f) =
      Prod.map id (mapSink f) (turns body name stop step limit done r) := by
  induction limit generalizing done r with
  | zero => rfl
  | succ limit ih =>
    rw [turns, turns, mapSink_vars]
    cases r.vars.tryPeek name with
    | none => rfl
    | some cell =>
      dsimp only
      cases cell.compare (.integer stop) with
      | error fault => rfl
      | ok sign =>
        dsimp only
        split
        · rw [hbody]
          rcases body r with ⟨ending, r'⟩
          cases ending with
          | failed fault => rfl
          | unfinished => rfl
          | returned =>
            simp only [Prod.map, id, mapSink_vars]
            cases r'.vars.tryPop name with
            | none => rfl
            | some popped =>
              dsimp only
              cases popped.1.increment (.integer step) with
              | error fault => rfl
              | ok cell => exact ih _ ⟨r'.sink, popped.2.push name cell, r'.log⟩
        · cases r.vars.tryPop name <;> rfl

theorem loop_map (hbody : ∀ r, body' (r.mapSink f) = Prod.map id (mapSink f) (body r))
    (limit : Nat) (head : Loop) (r : Run τ) :
    loop limit head body' (r.mapSink f) = Prod.map id (mapSink f) (loop limit head body r) := by
  unfold loop
  dsimp only
  split
  · rfl
  · exact turns_map hbody _ _ _ _ _ ⟨r.sink, r.vars.push head.name _, r.log⟩

end Run

variable [Sink σ] [Sink τ] {f : τ → σ}

/-! ## Echoes -/

theorem Builtin.call_map (hf : SinkMap f) (op : Builtin) (stack : List Value) (t : τ) :
    op.call stack (f t) = (op.call stack t).map (Prod.map id f) := by
  rw [call_eq_perform, call_eq_perform]
  cases op.plan stack with
  | leave result => cases result <;> rfl
  | setMimeType text rest =>
    simp only [Plan.perform, hf.setMimeType]
    cases Sink.setMimeType t text <;> rfl
  | read scope name value rest =>
    simp only [Plan.perform, hf.scopes]
    rfl
  | edit scope e rest =>
    simp only [Plan.perform, Sink.modify, hf.scopes, hf.withScopes]
    rfl

namespace Echo

theorem call_map (hf : SinkMap f) (e : Echo τ) (op : Builtin) :
    (e.mapSink f).call op = (e.call op).mapSink f := by
  unfold call
  rw [mapSink_stack, mapSink_sink, Builtin.call_map hf]
  cases op.call e.stack e.sink <;> rfl

theorem evaluate_map (hf : SinkMap f) (vars : NamedStacks) (e : Echo τ) (element : Element) :
    (e.mapSink f).evaluate vars element = Prod.map id (mapSink f) (e.evaluate vars element) := by
  cases element with
  | integer n => rfl
  | double x => rfl
  | string s => rfl
  | «variable» name =>
    simp only [evaluate]
    cases vars.tryPeek name <;> rfl
  | function name =>
    simp only [evaluate]
    cases Builtin.ofName? name with
    | none => rfl
    | some op => simp only [call_map hf]; rfl
  | operator op => rfl

theorem evaluateAll_map (hf : SinkMap f) (vars : NamedStacks) (elements : List Element)
    (e : Echo τ) :
    (e.mapSink f).evaluateAll vars elements =
      Prod.map id (mapSink f) (e.evaluateAll vars elements) := by
  induction elements generalizing e with
  | nil => rfl
  | cons element rest ih =>
    rw [evaluateAll, evaluateAll, evaluate_map hf]
    rcases e.evaluate vars element with ⟨_ | _, e'⟩
    · rfl
    · exact ih e'

theorem writeAll_map (hf : SinkMap f) (values : List Value) (t : τ) :
    writeAll (f t) values = Prod.map id f (writeAll t values) := by
  induction values generalizing t with
  | nil => rfl
  | cons v rest ih =>
    rw [writeAll, writeAll]
    cases v.format with
    | error fault => rfl
    | ok text =>
      simp only [hf.write]
      rcases Sink.write t text with ⟨_ | _, t'⟩
      · rfl
      · exact ih t'

end Echo

/-! ## Nodes -/

namespace Run

theorem text_map (hf : SinkMap f) (r : Run τ) (content : String) :
    (r.mapSink f).text content = Prod.map id (mapSink f) (r.text content) := by
  unfold text
  rw [mapSink_sink, hf.write]
  rcases Sink.write r.sink content with ⟨_ | _, t⟩ <;> rfl

theorem echo_map (hf : SinkMap f) (r : Run τ) (elements : List Element) :
    (r.mapSink f).echo elements = Prod.map id (mapSink f) (r.echo elements) := by
  unfold echo
  rw [show (⟨[], (r.mapSink f).sink, (r.mapSink f).log⟩ : Echo σ) =
    Echo.mapSink f ⟨[], r.sink, r.log⟩ from rfl, Echo.evaluateAll_map hf]
  rw [mapSink_vars]
  rcases Echo.evaluateAll r.vars ⟨[], r.sink, r.log⟩ elements with ⟨_ | _, e⟩
  · rfl
  · simp only [Prod.map, id, Echo.mapSink, Echo.writeAll_map hf]
    rcases Echo.writeAll e.sink e.stack.reverse with ⟨_ | _, t⟩ <;> rfl

mutual

theorem visit_map (hf : SinkMap f) (limit : Nat) : ∀ (node : Node) (r : Run τ),
    visit limit node (r.mapSink f) = Prod.map id (mapSink f) (visit limit node r)
  | .document children, r => by
    rw [visit, visit]
    exact visitAll_map hf limit children r
  | .text content, r => by
    rw [visit, visit]
    exact text_map hf r content
  | .echo elements, r => by
    rw [visit, visit]
    exact echo_map hf r elements
  | .forLoop head body, r => by
    rw [visit, visit]
    exact loop_map (visitAll_map hf limit body) limit head r

theorem visitAll_map (hf : SinkMap f) (limit : Nat) : ∀ (nodes : List Node) (r : Run τ),
    visitAll limit nodes (r.mapSink f) = Prod.map id (mapSink f) (visitAll limit nodes r)
  | [], r => by
    rw [visitAll, visitAll]
    rfl
  | node :: rest, r => by
    rw [visitAll, visitAll, visit_map hf limit node r]
    rcases visit limit node r with ⟨ending, r'⟩
    cases ending with
    | failed fault => rfl
    | unfinished => rfl
    | returned => exact visitAll_map hf limit rest r'

end

end Run

/-! ## Whole runs -/

theorem Engine.execute_map (hf : SinkMap f) (limit : Nat) (document : Node) (t : τ)
    (log : List LogRecord) :
    (Engine.mk document (f t)).execute limit log =
      Prod.map id (Run.mapSink f) ((Engine.mk document t).execute limit log) :=
  Run.visit_map hf limit document ⟨t, .empty, .executing :: log⟩

theorem render_map (hf : SinkMap f) (limit : Nat) (template : String) (t : τ) :
    render limit template (f t) =
      (render limit template t).map (Prod.map id (Run.mapSink f)) := by
  unfold render
  cases parse template with
  | error e => rfl
  | ok document => exact congrArg Except.ok (Engine.execute_map hf limit document t _)

end

/-! ## What a run keeps -/

namespace SinkInvariant

variable {σ : Type} [Sink σ] {P : σ → Prop}

/-- The sinks that have the property, as sinks of their own. Then forgetting the property is a
`SinkMap`, and that a run keeps it needs no further induction. -/
@[reducible] def sink (h : SinkInvariant P) : Sink { s // P s } where
  write s text := ((Sink.write s.1 text).1, ⟨_, h.write s.1 s.2 text⟩)
  setMimeType s mimeType :=
    match hset : Sink.setMimeType s.1 mimeType with
    | .error fault => .error fault
    | .ok s' => .ok ⟨s', h.setMimeType s.1 s.2 mimeType s' hset⟩
  scopes s := Sink.scopes s.1
  withScopes s scopes := ⟨_, h.withScopes s.1 s.2 scopes⟩

theorem sinkMap (h : SinkInvariant P) : @SinkMap σ { s // P s } _ h.sink Subtype.val :=
  letI := h.sink
  { write := fun _ _ => rfl
    setMimeType := fun s mimeType => by
      show _ = Except.map Subtype.val (match hset : Sink.setMimeType s.1 mimeType with
        | .error fault => .error fault
        | .ok s' => .ok ⟨s', h.setMimeType s.1 s.2 mimeType s' hset⟩)
      split
      · rename_i hset
        exact hset
      · rename_i hset
        exact hset
    scopes := fun _ => rfl
    withScopes := fun _ _ => rfl }

theorem writeAll (h : SinkInvariant P) {s : σ} (hs : P s) (values : List Value) :
    P (Echo.writeAll s values).2 := by
  let _ := h.sink
  have hmap := Echo.writeAll_map h.sinkMap values ⟨s, hs⟩
  rw [hmap]
  exact (Echo.writeAll (⟨s, hs⟩ : { s // P s }) values).2.2

theorem visitAll (h : SinkInvariant P) (limit : Nat) (nodes : List Node) {r : Run σ}
    (hr : P r.sink) : P (Run.visitAll limit nodes r).2.sink := by
  let _ := h.sink
  have hmap := Run.visitAll_map h.sinkMap limit nodes ⟨⟨r.sink, hr⟩, r.vars, r.log⟩
  rw [Run.mapSink] at hmap
  rw [hmap]
  exact (Run.visitAll limit nodes (⟨⟨r.sink, hr⟩, r.vars, r.log⟩ : Run { s // P s })).2.sink.2

theorem turns (h : SinkInvariant P) (limit : Nat) (nodes : List Node) (name : String)
    (stop step : Int) (fuel done : Nat) {r : Run σ} (hr : P r.sink) :
    P (Run.turns (Run.visitAll limit nodes) name stop step fuel done r).2.sink := by
  let _ := h.sink
  have hmap := Run.turns_map (Run.visitAll_map h.sinkMap limit nodes) name stop step fuel done
    ⟨⟨r.sink, hr⟩, r.vars, r.log⟩
  rw [Run.mapSink] at hmap
  rw [hmap]
  exact (Run.turns (Run.visitAll limit nodes) name stop step fuel done
    (⟨⟨r.sink, hr⟩, r.vars, r.log⟩ : Run { s // P s })).2.sink.2

theorem visitAll_cons (h : SinkInvariant P) (limit : Nat) (n : Node) (nodes : List Node) {r : Run σ}
    (hvisit : P (Run.visit limit n r).2.sink) :
    P (Run.visitAll limit (n :: nodes) r).2.sink := by
  rw [Run.visitAll]
  generalize Run.visit limit n r = x at hvisit
  obtain ⟨ending, r'⟩ := x
  cases ending with
  | failed fault => exact hvisit
  | unfinished => exact hvisit
  | returned => exact h.visitAll limit nodes hvisit

theorem turns_succ (h : SinkInvariant P) (limit : Nat) (nodes : List Node) {name : String}
    {stop : Int} (step : Int) (fuel done : Nat) {r : Run σ} {cell : Cell} {sign : Int}
    (hpeek : r.vars.tryPeek name = some cell) (hc : cell.compare (.integer stop) = .ok sign)
    (hs : sign ≤ 0) (hvisit : P (Run.visitAll limit nodes r).2.sink) :
    P (Run.turns (Run.visitAll limit nodes) name stop step (fuel + 1) done r).2.sink := by
  rw [Run.turns, hpeek]
  dsimp only
  rw [hc]
  dsimp only
  rw [if_pos hs]
  generalize Run.visitAll limit nodes r = x at hvisit
  obtain ⟨ending, r'⟩ := x
  cases ending with
  | failed fault => exact hvisit
  | unfinished => exact hvisit
  | returned =>
    dsimp only
    cases r'.vars.tryPop name with
    | none => exact hvisit
    | some popped =>
      dsimp only
      cases popped.1.increment (.integer step) with
      | error fault => exact hvisit
      | ok cell => exact h.turns limit nodes name stop step fuel (done + 1) hvisit

/-- A run keeps what each call to its sink keeps, however it ends. It is how the invariants of a
response are shown of whole renders: one call at a time, and nothing of the templates is needed. -/
theorem render (h : SinkInvariant P) {limit : Nat} {template : String} {s : σ} {ending : Ending}
    {r : Run σ} (hs : P s) (hrun : Stencil.render limit template s = .ok (ending, r)) :
    P r.sink := by
  let _ := h.sink
  rw [render_map h.sinkMap limit template ⟨s, hs⟩] at hrun
  obtain ⟨out, -, hout⟩ := map_eq_ok_iff.1 hrun
  obtain ⟨-, rfl⟩ := Prod.mk.inj hout
  exact out.2.sink.2

end SinkInvariant

end Stencil
