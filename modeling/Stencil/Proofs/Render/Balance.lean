import Stencil.Render.Engine

/-!
# Runs leave the stacks as they found them

A loop puts a value on the stack of its variable, changes it between two turns, and takes it off
at the end. Whatever its body does in between, and however deep loops over the same name nest, a
visit that returns leaves every stack with the values that it had: `Run.visit_balanced`.
-/

set_option autoImplicit false

namespace Stencil

/-! ## Pushing and popping -/

namespace NamedStacks

theorem cells_push (s : NamedStacks) (name k : String) (c : Cell) :
    (s.push name c).cells k = if k = name then c :: s.cells name else s.cells k :=
  cells_setCells s name k (c :: s.cells name)

theorem cells_of_tryPop {s s' : NamedStacks} {name : String} {c : Cell}
    (h : s.tryPop name = some (c, s')) (k : String) :
    s.cells k = if k = name then c :: s'.cells name else s'.cells k := by
  unfold tryPop at h
  split at h
  · exact absurd h (by simp)
  · rename_i top rest hcells
    obtain ⟨rfl, rfl⟩ : top = c ∧ s.setCells name rest = s' := by simpa using h
    rw [cells_setCells, cells_setCells, if_pos rfl]
    split
    · rename_i hk
      rw [hk, hcells]
    · rfl

theorem exists_tryPop {s : NamedStacks} {name : String} {c : Cell} {rest : List Cell}
    (h : s.cells name = c :: rest) :
    ∃ s', s.tryPop name = some (c, s') ∧
      ∀ k, s'.cells k = if k = name then rest else s.cells k := by
  refine ⟨s.setCells name rest, ?_, fun k => cells_setCells s name k rest⟩
  unfold tryPop
  rw [h]

end NamedStacks

namespace Run

variable {σ : Type}

/-- Two runs with the same cells under every name. This is coarser than having the same stacks, for
a name with an empty list may be listed in one of them. -/
def SameCells (r r' : Run σ) : Prop := ∀ k, r'.vars.cells k = r.vars.cells k

/-- A body that leaves the cells as they were whenever it returns. One that fails need not: its
loops are left with their values in place. -/
def Balanced (body : Run σ → Ending × Run σ) : Prop :=
  ∀ r r', body r = (.returned, r') → SameCells r r'

/-- The turns of a loop take off the cell of the loop, and leave everything below and beside it as
it was. -/
theorem turns_cells {body : Run σ → Ending × Run σ} (hbody : Balanced body) {name : String}
    {stop step : Int} (limit : Nat) :
    ∀ {done : Nat} {r r' : Run σ}, turns body name stop step limit done r = (.returned, r') →
      ∃ c, ∀ k, r.vars.cells k = if k = name then c :: r'.vars.cells name else r'.vars.cells k := by
  induction limit with
  | zero =>
    intro done r r' h
    exact absurd h (by simp [turns])
  | succ limit ih =>
    intro done r r' h
    rw [turns] at h
    split at h
    · exact absurd h (by simp)
    split at h
    · exact absurd h (by simp)
    split at h
    · -- One more turn: the body leaves the cells alone, and the popped one is pushed changed.
      split at h
      · rename_i middle hmiddle
        have hsame := hbody _ _ hmiddle
        split at h
        · exact absurd h (by simp)
        rename_i c vars hpop
        have hpopped := NamedStacks.cells_of_tryPop hpop
        split at h
        · exact absurd h (by simp)
        rename_i c' hincrement
        obtain ⟨top, htop⟩ := ih h
        refine ⟨c, fun k => ?_⟩
        rw [← hsame k, hpopped k]
        have hname := htop name
        have hk := htop k
        simp only [NamedStacks.cells_push, if_true] at hname hk
        split
        · rw [(List.cons.inj hname).2]
        · rename_i hne
          rwa [if_neg hne, if_neg hne] at hk
      · rename_i hne hother
        cases h
        exact absurd rfl hne
    · split at h
      · exact absurd h (by simp)
      · -- The loop is over, and has done nothing to the cells but to take off its own.
        rename_i c vars hpop
        obtain rfl : _ = r' := (Prod.mk.inj h).2
        exact ⟨c, NamedStacks.cells_of_tryPop hpop⟩

theorem loop_balanced {body : Run σ → Ending × Run σ} (hbody : Balanced body) (limit : Nat)
    (head : Loop) : Balanced (loop limit head body) := by
  intro r r' h k
  unfold loop at h
  dsimp only at h
  split at h
  · exact absurd h (by simp)
  · -- The cell that the turns take off is the one that the loop has pushed.
    obtain ⟨c, hcells⟩ := turns_cells hbody limit h
    have hname := hcells head.name
    have hk := hcells k
    simp only [NamedStacks.cells_push, if_true] at hname hk
    by_cases heq : k = head.name
    · rw [heq, (List.cons.inj hname).2]
    · rwa [if_neg heq, if_neg heq, eq_comm] at hk

variable [Sink σ]

theorem text_vars (r : Run σ) (content : String) : (r.text content).2.vars = r.vars := by
  unfold text
  split <;> rfl

theorem echo_vars (r : Run σ) (elements : List Element) : (r.echo elements).2.vars = r.vars := by
  unfold echo
  split
  · rfl
  · split <;> rfl

mutual

/-- A visit that returns leaves the cells as they were. The induction is on the tree; a loop puts on
a cell of its own and takes it off again, and between the two its body changes no other. -/
theorem visit_balanced (limit : Nat) : ∀ n : Node, Balanced (visit (σ := σ) limit n)
  | .document children => fun r r' h => visitAll_balanced limit children r r' h
  | .text content => by
    intro r r' h k
    rw [visit] at h
    rw [← text_vars r content, h]
  | .echo elements => by
    intro r r' h k
    rw [visit] at h
    rw [← echo_vars r elements, h]
  | .forLoop head body => by
    intro r r' h
    rw [visit] at h
    exact loop_balanced (fun r r' h => visitAll_balanced limit body r r' h) limit head r r' h

theorem visitAll_balanced (limit : Nat) : ∀ ns : List Node, Balanced (visitAll (σ := σ) limit ns)
  | [] => by
    intro r r' h k
    obtain rfl : r = r' := (Prod.mk.inj h).2
    rfl
  | n :: ns => by
    intro r r' h k
    rw [visitAll] at h
    split at h
    · rename_i middle hmiddle
      rw [visitAll_balanced limit ns _ _ h k, visit_balanced limit n _ _ hmiddle k]
    · rename_i hne hother
      cases h
      exact absurd rfl hne

end

end Run

end Stencil
