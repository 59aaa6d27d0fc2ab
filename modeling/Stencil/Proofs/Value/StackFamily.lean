import Stencil.Proofs.Value.Arithmetic
import Stencil.Proofs.Value.OwnCells

/-!
# Stacks under names are a family of lists

Beside the stacks stands the plainest thing that they could be: a function from names to lists of
cells (`CellFamily`), of which an operation on a name changes the list of that name only. Stacks and
function answer alike for ever, whichever cells are shared (`replies_family`). What is on a stack is
a cell and not what it holds, so a change of a cell touches no list at all; it shows wherever the
cell stands, and nowhere else.
-/

set_option autoImplicit false

namespace Stencil

namespace CellStacks

/-! ## Plain lists -/

/-- What every cell holds, and a list of cells for every name, the top first. -/
structure CellFamily where
  held : CellId → Cell
  lists : String → List CellId

/-- What an operation on the stack of a name answers on the plain list of that name, with the list
and the cells that it leaves. -/
def StackOp.onList (name : String) (held : CellId → Cell) :
    StackOp → List CellId → Except StackFault Answer × List CellId × (CellId → Cell)
  | .push c, list => (.ok .done, c :: list, held)
  | .pushBare v, list => (.error (.notCell v), list, held)
  | .pop, [] => (.error (.noStack name), [], held)
  | .pop, c :: list => (.ok (.cell (some (c, held c))), list, held)
  | .peek, [] => (.error (.noStack name), [], held)
  | .peek, c :: list => (.ok (.cell (some (c, held c))), c :: list, held)
  | .tryPop, [] => (.ok (.cell none), [], held)
  | .tryPop, c :: list => (.ok (.cell (some (c, held c))), list, held)
  | .tryPeek, list => (.ok (.cell (list.head?.map fun c => (c, held c))), list, held)
  | .change _, [] => (.error (.noStack name), [], held)
  | .change op, c :: list => ((changeCell held c op).1, c :: list, (changeCell held c op).2)
  | .isEmpty, list => (.ok (.truth list.isEmpty), list, held)

/-- What an operation answers on the lists, and what it leaves of them. An operation on a name looks
at the list of that name only and changes no other, a change of a cell neither looks at a list nor
changes one, and clearing leaves every list empty. -/
def CellFamily.apply (f : CellFamily) : Op → Except StackFault Answer × CellFamily
  | .under name op =>
    let left := op.onList name f.held (f.lists name)
    (left.1, ⟨left.2.2, Function.update f.lists name left.2.1⟩)
  | .change c op => ((changeCell f.held c op).1, { f with held := (changeCell f.held c op).2 })
  | .clear => (.ok .done, { f with lists := fun _ => [] })

/-- Stacks that have the cells of a family, in the same order, and lists no empty stack. Cells are
the same ones and not merely cells that hold the same. -/
structure Follows (s : CellStacks) (f : CellFamily) : Prop where
  held : s.held = f.held
  placed : s.placed.Represents f.lists

variable {s : CellStacks} {f : CellFamily} {name k : String} {c : CellId} {fault : StackFault}

namespace Follows

theorem peek_eq (h : s.Follows f) {list : List CellId} (hlist : f.lists name = c :: list) :
    s.placed.peek name = .ok c :=
  NamedStacks.peek_of_tryPeek (by rw [h.placed.tryPeek_eq, hlist]; rfl)

theorem peek_nil (h : s.Follows f) (hlist : f.lists name = []) :
    s.placed.peek name = .error (.noStack name) :=
  NamedStacks.peek_of_nil (by rw [h.placed.tryPeek_eq, hlist]; rfl)

/-- An operation on one stack. Those that look at the top first are split by whether there is one.
-/
theorem applyUnder (h : s.Follows f) (name : String) (op : StackOp) :
    (s.applyUnder name op).1 = (f.apply (.under name op)).1 ∧
      (s.applyUnder name op).2.Follows (f.apply (.under name op)).2 := by
  obtain ⟨held, placed⟩ := s
  obtain rfl : held = f.held := h.held
  -- The family puts a list in its place after every operation, also after one that only looks.
  have hstay : placed.Represents (Function.update f.lists name (f.lists name)) :=
    h.placed.of_cells rfl
  cases op with
  | push c => exact ⟨rfl, rfl, h.placed.push name c⟩
  | pushBare v => exact ⟨rfl, rfl, hstay⟩
  | isEmpty =>
    refine ⟨?_, rfl, hstay⟩
    show Except.ok (Answer.truth (placed.isEmpty name)) = .ok (.truth (f.lists name).isEmpty)
    rw [h.placed.isEmpty_eq]
  | tryPeek =>
    refine ⟨?_, rfl, hstay⟩
    show Except.ok (Answer.cell ((placed.tryPeek name).map _)) =
      .ok (.cell ((f.lists name).head?.map _))
    rw [h.placed.tryPeek_eq]
  | peek =>
    simp only [CellStacks.applyUnder, CellFamily.apply]
    cases hlist : f.lists name with
    | nil =>
      rw [h.peek_nil hlist]
      exact ⟨rfl, rfl, h.placed.of_cells hlist⟩
    | cons c list =>
      rw [h.peek_eq hlist]
      exact ⟨rfl, rfl, h.placed.of_cells hlist⟩
  | change op =>
    simp only [CellStacks.applyUnder, CellFamily.apply]
    cases hlist : f.lists name with
    | nil =>
      rw [h.peek_nil hlist]
      exact ⟨rfl, rfl, h.placed.of_cells hlist⟩
    | cons c list =>
      rw [h.peek_eq hlist]
      exact ⟨rfl, rfl, h.placed.of_cells hlist⟩
  | tryPop =>
    simp only [CellStacks.applyUnder, CellFamily.apply]
    cases hlist : f.lists name with
    | nil =>
      rw [h.placed.tryPop_of_nil hlist]
      exact ⟨rfl, rfl, h.placed.of_cells hlist⟩
    | cons c list =>
      obtain ⟨placed', hpop, hplaced⟩ := h.placed.tryPop_of_cons hlist
      rw [hpop]
      exact ⟨rfl, rfl, hplaced⟩
  | pop =>
    simp only [CellStacks.applyUnder, CellFamily.apply]
    cases hlist : f.lists name with
    | nil =>
      rw [NamedStacks.pop_of_nil (h.placed.tryPop_of_nil hlist)]
      exact ⟨rfl, rfl, h.placed.of_cells hlist⟩
    | cons c list =>
      obtain ⟨placed', hpop, hplaced⟩ := h.placed.tryPop_of_cons hlist
      rw [NamedStacks.pop_of_tryPop hpop]
      exact ⟨rfl, rfl, hplaced⟩

/-- One operation: stacks and family answer alike, and still go together. -/
theorem apply (h : s.Follows f) (op : Op) :
    (s.apply op).1 = (f.apply op).1 ∧ (s.apply op).2.Follows (f.apply op).2 := by
  cases op with
  | under name op => exact h.applyUnder name op
  | clear => exact ⟨rfl, h.held, .empty⟩
  | change c op =>
    obtain ⟨held, placed⟩ := s
    obtain rfl : held = f.held := h.held
    exact ⟨rfl, rfl, h.placed⟩

end Follows

/-! ## Operations that fail, and what else they leave alone -/

theorem changeCell_of_error {held : CellId → Cell} {op : Cell.Op}
    (h : (changeCell held c op).1 = .error fault) : (changeCell held c op).2 = held := by
  unfold changeCell at h ⊢
  rcases (held c).apply_cases op with ⟨answer, cell, -, happly⟩ | ⟨fault', -, happly⟩
  · rw [happly] at h
    exact absurd h (by simp)
  · rw [happly]
    funext k
    exact ite_eq_right_iff.2 fun hk => congrArg held hk.symm

theorem change_of_error {op : Cell.Op} (h : (s.change c op).1 = .error fault) :
    (s.change c op).2 = s := by
  rw [change, changeCell_of_error h]

/-- An operation that fails changes nothing. Even a change of a cell that fails puts the cell back,
so the cells are the same as a function, and not only where somebody looks. -/
theorem apply_of_error {op : Op} (h : (s.apply op).1 = .error fault) : (s.apply op).2 = s := by
  cases op with
  | clear => exact absurd h (by simp [apply])
  | change c op => exact change_of_error h
  | under name op =>
    cases op with
    | push c => exact absurd h (by simp [apply, applyUnder])
    | pushBare v => rfl
    | peek => rfl
    | tryPeek => rfl
    | isEmpty => rfl
    | tryPop =>
      simp only [apply, applyUnder] at h ⊢
      cases hpop : s.placed.tryPop name with
      | none => rfl
      | some popped => rw [hpop] at h; exact absurd h (by simp)
    | pop =>
      simp only [apply, applyUnder] at h ⊢
      cases hpop : s.placed.pop name with
      | error e => rfl
      | ok popped => rw [hpop] at h; exact absurd h (by simp)
    | change op =>
      simp only [apply, applyUnder] at h ⊢
      cases hpeek : s.placed.peek name with
      | error e => rfl
      | ok c =>
        rw [hpeek] at h
        exact change_of_error h

theorem held_change {k : CellId} (h : k ≠ c) (op : Cell.Op) :
    (s.change c op).2.held k = s.held k := if_neg h

/-- An operation on a stack changes no cell but the one on top of it. -/
theorem held_applyUnder (h : s.placed.tryPeek name ≠ some c) (op : StackOp) :
    (s.applyUnder name op).2.held c = s.held c := by
  cases op with
  | push c => rfl
  | pushBare v => rfl
  | peek => rfl
  | tryPeek => rfl
  | isEmpty => rfl
  | tryPop =>
    rw [applyUnder]
    split <;> rfl
  | pop =>
    rw [applyUnder]
    split <;> rfl
  | change op =>
    rw [applyUnder]
    cases hpeek : s.placed.tryPeek name with
    | none =>
      rw [NamedStacks.peek_of_nil hpeek]
    | some top =>
      rw [NamedStacks.peek_of_tryPeek hpeek]
      refine held_change (fun heq => h ?_) op
      rw [hpeek, heq]

theorem values_change (h : c ∉ s.placed.cells name) (op : Cell.Op) :
    (s.change c op).2.values name = s.values name :=
  List.map_congr_left fun _ hmem => held_change (ne_of_mem_of_not_mem hmem h) op

theorem peek_eq_noStack_iff :
    (s.apply (.under name .peek)).1 = .error (.noStack name) ↔ s.placed.cells name = [] := by
  rw [← NamedStacks.peek_eq_noStack_iff]
  exact map_eq_error_iff

theorem pop_eq_noStack_iff :
    (s.apply (.under name .pop)).1 = .error (.noStack name) ↔ s.placed.cells name = [] := by
  rw [← NamedStacks.pop_eq_noStack_iff]
  simp only [apply, applyUnder]
  cases s.placed.pop name with
  | error e => simp
  | ok popped => simp

namespace Follows

theorem cells_applyUnder (h : s.Follows f) (hk : k ≠ name) (op : StackOp) :
    (s.applyUnder name op).2.placed.cells k = s.placed.cells k := by
  rw [(h.applyUnder name op).2.placed.cells_eq, h.placed.cells_eq]
  exact Function.update_of_ne hk _ _

theorem values_applyUnder (h : s.Follows f) (hk : k ≠ name)
    (htop : ∀ c, s.placed.tryPeek name = some c → c ∉ s.placed.cells k) (op : StackOp) :
    (s.applyUnder name op).2.values k = s.values k := by
  unfold values
  rw [h.cells_applyUnder hk op]
  exact List.map_congr_left fun c hmem => held_applyUnder (fun heq => htop c heq hmem) op

end Follows

/-! ## Whole runs -/

/-- Whatever is done to the stacks one after another, failing operations among it, is answered as a
function from names to plain lists of cells answers it, and the stacks have what that function has.
Cells may stand on several stacks, and may be changed through any of them or by one who has kept
them: `ops` is any list of operations on any cells.

No empty stack is listed, so a name is not listed exactly if there is nothing to look at and exactly
if taking and looking fail for want of a stack. An operation that fails changes nothing. One on a
name changes no other list, and what is seen of another stack changes only if the cell that it is
about stands there too. Where every value has a cell of its own, stacks of whole cells do as well.
-/
theorem replies_family (held : CellId → Cell) (ops : List Op) :
    let run := replies apply ⟨held, .empty⟩ ops
    let family := replies CellFamily.apply ⟨held, fun _ => []⟩ ops
    run.1 = family.1 ∧ run.2.held = family.2.held ∧
      (∀ name, run.2.placed.cells name = family.2.lists name) ∧
      (∀ e ∈ run.2.placed.table.entries, e.2 ≠ []) ∧
      (∀ name, (run.2.placed.isEmpty name = true ↔ run.2.placed.tryPeek name = none) ∧
        (run.2.placed.isEmpty name = true ↔
          (run.2.apply (.under name .pop)).1 = .error (.noStack name)) ∧
        (run.2.placed.isEmpty name = true ↔
          (run.2.apply (.under name .peek)).1 = .error (.noStack name))) ∧
      (∀ op fault, (run.2.apply op).1 = .error fault → (run.2.apply op).2 = run.2) ∧
      (∀ name op k, k ≠ name →
        (run.2.apply (.under name op)).2.placed.cells k = run.2.placed.cells k ∧
        ((∀ c, run.2.placed.tryPeek name = some c → c ∉ run.2.placed.cells k) →
          (run.2.apply (.under name op)).2.values k = run.2.values k)) ∧
      (∀ c op, (run.2.apply (.change c op)).2.placed = run.2.placed ∧
        ∀ k, c ∉ run.2.placed.cells k →
          (run.2.apply (.change c op)).2.values k = run.2.values k) ∧
      ∀ own, (replies NamedStacks.apply .empty own).1 =
        (replies Owned.apply ⟨⟨held, .empty⟩, 0⟩ own).1 := by
  intro run family
  obtain ⟨hanswers, hfollows⟩ : run.1 = family.1 ∧ run.2.Follows family.2 :=
    replies_agree (fun s f op h => h.apply op) ⟨rfl, .empty⟩ ops
  refine ⟨hanswers, hfollows.held, hfollows.placed.cells_eq, hfollows.placed.ne_nil,
    ?_, ?_, ?_, ?_, ?_⟩
  · intro name
    rw [hfollows.placed.isEmpty_iff, NamedStacks.tryPeek_eq_none_iff, pop_eq_noStack_iff,
      peek_eq_noStack_iff]
    exact ⟨Iff.rfl, Iff.rfl, Iff.rfl⟩
  · intro op fault hfails
    exact apply_of_error hfails
  · intro name op k hk
    exact ⟨hfollows.cells_applyUnder hk op, fun htop => hfollows.values_applyUnder hk htop op⟩
  · intro c op
    exact ⟨rfl, fun k hc => values_change hc op⟩
  · intro own
    exact (replies_own held own).1

/-- One cell on two stacks: what is added to it through one of them is seen through the other. -/
example : (replies apply ⟨fun _ => ⟨.integer 1⟩, .empty⟩
    [.under "i" (.push 0), .under "j" (.push 0), .under "i" (.change (.increment (.integer 4))),
      .under "j" .pop, .change 0 (.increment (.integer 1)), .under "i" .tryPeek,
      .under "j" .pop]).1 =
    [.ok .done, .ok .done, .ok (.changed none), .ok (.cell (some (0, ⟨.integer 5⟩))),
      .ok (.changed none), .ok (.cell (some (0, ⟨.integer 6⟩))), .error (.noStack "j")] := by rfl

end CellStacks

end Stencil
