import Stencil.Proofs.Render.Scoping

/-!
# What a template renders to

A render that ends does so within some limit of turns, and then within any greater one. `Renders`
leaves the limit out: a template that is accepted renders just as the reference runs its tree
(`renders_iff`), and so to one result at most.
-/

set_option autoImplicit false

namespace Stencil

variable {σ : Type} [Sink σ] {template : String} {document : Node} {sink : σ}
  {result : Except EvalFault Unit} {o : Seen σ}

/-- Given turns enough, the render of a template into a sink ends with the result, and then `o` is
seen. -/
def Renders (template : String) (sink : σ) (result : Except EvalFault Unit) (o : Seen σ) : Prop :=
  ∃ limit, ∀ more ≥ limit, ∃ r,
    render more template sink = .ok (Ending.ofResult result, r) ∧ r.seen = o

omit [Sink σ] in
theorem seen_opening (sink : σ) (vars : NamedStacks) (count : Nat) :
    (⟨sink, vars, [.executing, .parsed count]⟩ : Run σ).seen = ⟨sink, []⟩ := rfl

theorem Reference.renders (hparse : parse template = .ok document)
    (h : Reference [] (.node document) ⟨sink, []⟩ result o) : Renders template sink result o := by
  obtain ⟨limit, hends⟩ := h.exists_limit
  refine ⟨limit, fun more hmore => ?_⟩
  obtain ⟨r, hrun, hseen⟩ := hends more hmore more hmore
    ⟨sink, .empty, [.executing, .parsed document.children.length]⟩ .empty (seen_opening _ _ _)
  refine ⟨r, ?_, hseen⟩
  rw [render, hparse]
  exact congrArg Except.ok hrun

theorem reference_of_render {limit : Nat} {r : Run σ} (hparse : parse template = .ok document)
    (h : render limit template sink = .ok (Ending.ofResult result, r)) :
    Reference [] (.node document) ⟨sink, []⟩ result r.seen := by
  rw [render, hparse] at h
  exact Engine.reference_of_execute (Except.ok.inj h)

theorem renders_iff (hparse : parse template = .ok document) :
    Renders template sink result o ↔ Reference [] (.node document) ⟨sink, []⟩ result o := by
  refine ⟨fun ⟨limit, hends⟩ => ?_, Reference.renders hparse⟩
  obtain ⟨r, hrun, rfl⟩ := hends limit (Nat.le_refl limit)
  exact reference_of_render hparse hrun

end Stencil
