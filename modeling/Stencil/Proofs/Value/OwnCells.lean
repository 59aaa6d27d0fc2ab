import Stencil.Proofs.Replies
import Stencil.Proofs.Value.StackTable
import Stencil.Value.CellStacks

/-!
# Callers who share no cell

A caller who makes a new cell for every value that he pushes, and keeps none, can not tell one cell
from another that holds the same. For him the stacks could as well hold the cells themselves, and
that is what the operations of `NamedStacks` do: they answer him as the stacks of identities do
(`replies_own`). The reason is that his cells stand in one place each, so that a change of the cell
on top of one stack is a change of that stack alone.
-/

set_option autoImplicit false

namespace Stencil

namespace CellStacks

/-- What is seen of an answer by one who looks at what a cell holds, and not at which cell it is. -/
def Answer.seen : Answer → NamedStacks.Answer
  | .done | .changed _ => .done
  | .cell c => .cell (c.map (·.2))
  | .truth b => .truth b

/-- The stacks and the identity of the cell that is made next: all cells made so far are below. -/
structure Owned where
  shared : CellStacks
  next : CellId

namespace Owned

def onStack (s : Owned) (name : String) (op : StackOp) :
    Except StackFault NamedStacks.Answer × Owned :=
  let (answer, shared) := s.shared.applyUnder name op
  (answer.map Answer.seen, { s with shared })

/-- The operations of a caller who makes a cell for every value that he pushes. A cell is made by
putting the value into it, which can be refused, and then nothing is pushed. -/
def apply (s : Owned) : NamedStacks.Op → Except StackFault NamedStacks.Answer × Owned
  | .push name v =>
    match (s.shared.change s.next (.assign v)).1 with
    | .ok _ =>
      let made := (s.shared.change s.next (.assign v)).2
      (.ok .done, ⟨(made.applyUnder name (.push s.next)).2, s.next + 1⟩)
    | .error fault => (.error fault, s)
  | .pushBare name v => s.onStack name (.pushBare v)
  | .pop name => s.onStack name .pop
  | .peek name => s.onStack name .peek
  | .tryPop name => s.onStack name .tryPop
  | .tryPeek name => s.onStack name .tryPeek
  | .increment name v => s.onStack name (.change (.increment v))
  | .isEmpty name => s.onStack name .isEmpty
  | .clear => (.ok .done, { s with shared := (s.shared.apply .clear).2 })

end Owned

/-! ## One place for every cell -/

/-- Every cell stands in one place only: all are from those made so far, none stands on one stack
twice, and none stands on two stacks. -/
structure OnePlace (f : String → List CellId) (next : CellId) : Prop where
  below : ∀ name, ∀ c ∈ f name, c < next
  nodup : ∀ name, (f name).Nodup
  apart : ∀ {name k : String} {c : CellId}, c ∈ f name → c ∈ f k → name = k

namespace OnePlace

variable {f g : String → List CellId} {next : CellId} {name : String} {c : CellId}
  {rest : List CellId}

theorem nowhere (next : CellId) : OnePlace (fun _ => []) next where
  below _ c hmem := absurd hmem (by simp)
  nodup _ := List.nodup_nil
  apart hmem _ := absurd hmem (by simp)

theorem of_sublist (h : OnePlace f next) (hsub : ∀ k, (g k).Sublist (f k)) : OnePlace g next where
  below k c hmem := h.below k c ((hsub k).subset hmem)
  nodup k := (h.nodup k).sublist (hsub k)
  apart hname hk := h.apart ((hsub _).subset hname) ((hsub _).subset hk)

theorem pop (h : OnePlace f next) (hlist : f name = c :: rest) :
    OnePlace (Function.update f name rest) next := by
  refine h.of_sublist fun k => ?_
  by_cases hk : k = name
  · rw [hk, Function.update_self, hlist]
    exact List.sublist_cons_self c rest
  · simp [Function.update_of_ne hk]

/-- The newest cell is put on one stack, and so it stands on no other. -/
theorem push (h : OnePlace f next) (name : String) :
    OnePlace (Function.update f name (next :: f name)) (next + 1) := by
  have hfresh : ∀ k, next ∉ f k := fun k hmem => Nat.lt_irrefl _ (h.below k _ hmem)
  have hmem_iff : ∀ k c, c ∈ Function.update f name (next :: f name) k ↔
      c ∈ f k ∨ k = name ∧ c = next := by
    intro k c
    by_cases hk : k = name
    · rw [hk, Function.update_self, List.mem_cons, or_comm, and_iff_right rfl]
    · rw [Function.update_of_ne hk, or_iff_left fun hboth => hk hboth.1]
  refine ⟨?_, ?_, ?_⟩
  · intro k c hmem
    rcases (hmem_iff k c).1 hmem with hmem | ⟨-, rfl⟩
    · exact Nat.lt_succ_of_lt (h.below k c hmem)
    · exact Nat.lt_succ_self _
  · intro k
    by_cases hk : k = name
    · rw [hk, Function.update_self]
      exact List.nodup_cons.2 ⟨hfresh name, h.nodup name⟩
    · rw [Function.update_of_ne hk]
      exact h.nodup k
  · intro k l c hc hc'
    rcases (hmem_iff k c).1 hc with hmem | ⟨rfl, rfl⟩
    · rcases (hmem_iff l c).1 hc' with hmem' | ⟨-, rfl⟩
      · exact h.apart hmem hmem'
      · exact absurd hmem (hfresh k)
    · rcases (hmem_iff l c).1 hc' with hmem' | ⟨rfl, -⟩
      · exact absurd hmem' (hfresh l)
      · rfl

/-- A change of the cell on top of one stack shows there, at the top, and nowhere else: the cell is
not deeper in the same stack, nor in another one. -/
theorem map_change (h : OnePlace f next) (hlist : f name = c :: rest) (held : CellId → Cell)
    (v : Cell) :
    (fun k => (f k).map fun l => if l = c then v else held l) =
      Function.update (fun k => (f k).map held) name (v :: rest.map held) := by
  funext k
  by_cases hk : k = name
  · have hnot : c ∉ rest := (List.nodup_cons.1 (hlist ▸ h.nodup name)).1
    rw [hk, Function.update_self, hlist, List.map_cons, if_pos rfl]
    congr 1
    exact List.map_congr_left fun l hmem => if_neg (ne_of_mem_of_not_mem hmem hnot)
  · have hnot : c ∉ f k := fun hmem => hk (h.apart hmem (hlist ▸ List.mem_cons_self))
    rw [Function.update_of_ne hk]
    exact List.map_congr_left fun l hmem => if_neg (ne_of_mem_of_not_mem hmem hnot)

end OnePlace

namespace Owned

/-! ## Stacks of whole cells -/

/-- The stacks hold what whole cells on stacks would be, and every cell stands in one place only.
The second part is what the first one needs to stay true when a cell is changed. -/
structure Mirrors (t : Owned) (s : NamedStacks) (f : String → List CellId) : Prop where
  placed : t.shared.placed.Represents f
  cells : s.Represents fun name => (f name).map t.shared.held
  onePlace : OnePlace f t.next

namespace Mirrors

variable {t : Owned} {s s' : NamedStacks} {f : String → List CellId} {name : String} {c : CellId}
  {rest : List CellId} {held : CellId → Cell}

theorem start (held : CellId → Cell) (next : CellId) :
    Mirrors ⟨⟨held, .empty⟩, next⟩ .empty fun _ => [] :=
  ⟨.empty, .empty, .nowhere next⟩

/-- Taking the top off leaves every cell where it was, if anywhere. -/
theorem popped (h : t.Mirrors s f) (hlist : f name = c :: rest) {placed : NamedStacks CellId}
    (hplaced : placed.Represents (Function.update f name rest))
    (hs : s'.Represents
      (Function.update (fun k => (f k).map t.shared.held) name (rest.map t.shared.held))) :
    Mirrors ⟨⟨t.shared.held, placed⟩, t.next⟩ s' (Function.update f name rest) where
  placed := hplaced
  cells := by
    show s'.Represents (List.map t.shared.held ∘ Function.update f name rest)
    rw [Function.comp_update]
    exact hs
  onePlace := h.onePlace.pop hlist

/-- Putting on the newest cell. Only this cell has changed, and nobody has seen it before. -/
theorem pushed (h : t.Mirrors s f) (name : String) (v : Cell) {placed : NamedStacks CellId}
    (hheld : ∀ c < t.next, held c = t.shared.held c) (hnew : held t.next = v)
    (hplaced : placed.Represents (Function.update f name (t.next :: f name)))
    (hs : s'.Represents (Function.update (fun k => (f k).map t.shared.held) name
      (v :: (f name).map t.shared.held))) :
    Mirrors ⟨⟨held, placed⟩, t.next + 1⟩ s' (Function.update f name (t.next :: f name)) := by
  have hold : ∀ k, (f k).map held = (f k).map t.shared.held := fun k =>
    List.map_congr_left fun c hmem => hheld c (h.onePlace.below k c hmem)
  refine ⟨hplaced, ?_, h.onePlace.push name⟩
  show s'.Represents (List.map held ∘ Function.update f name (t.next :: f name))
  have hothers : List.map held ∘ f = fun k => (f k).map t.shared.held := funext hold
  rw [Function.comp_update, List.map_cons, hnew, hold, hothers]
  exact hs

theorem changed (h : t.Mirrors s f) (hlist : f name = c :: rest) (v : Cell)
    (hs : s'.Represents (Function.update (fun k => (f k).map t.shared.held) name
      (v :: rest.map t.shared.held))) :
    Mirrors ⟨⟨fun k => if k = c then v else t.shared.held k, t.shared.placed⟩, t.next⟩ s' f := by
  refine ⟨h.placed, ?_, h.onePlace⟩
  show s'.Represents fun k => (f k).map fun l => if l = c then v else t.shared.held l
  rw [h.onePlace.map_change hlist]
  exact hs

/-! ### One operation -/

theorem pop_nil (h : t.Mirrors s f) (hlist : f name = []) :
    s.tryPop name = none ∧ t.shared.placed.tryPop name = none :=
  ⟨h.cells.tryPop_of_nil (by rw [hlist, List.map_nil]), h.placed.tryPop_of_nil hlist⟩

theorem pop_cons (h : t.Mirrors s f) (hlist : f name = c :: rest) :
    ∃ s' placed, s.tryPop name = some (t.shared.held c, s') ∧
      t.shared.placed.tryPop name = some (c, placed) ∧
      Mirrors ⟨⟨t.shared.held, placed⟩, t.next⟩ s' (Function.update f name rest) := by
  obtain ⟨s', hs', hcells⟩ := h.cells.tryPop_of_cons (by rw [hlist, List.map_cons])
  obtain ⟨placed, hpop, hplaced⟩ := h.placed.tryPop_of_cons hlist
  exact ⟨s', placed, hs', hpop, h.popped hlist hplaced hcells⟩

theorem tryPeek_eq (h : t.Mirrors s f) (name : String) :
    s.tryPeek name = (t.shared.placed.tryPeek name).map t.shared.held := by
  rw [h.cells.tryPeek_eq, h.placed.tryPeek_eq, List.head?_map]

/-- Whole cells on stacks answer an operation as the stacks of identities do, and hold what these do
afterwards. -/
theorem apply (h : t.Mirrors s f) (op : NamedStacks.Op) :
    (s.apply op).1 = (t.apply op).1 ∧ ∃ f', (t.apply op).2.Mirrors (s.apply op).2 f' := by
  cases op with
  | clear => exact ⟨rfl, _, .start t.shared.held t.next⟩
  | pushBare name v => exact ⟨rfl, f, h⟩
  | isEmpty name =>
    refine ⟨?_, f, h⟩
    show Except.ok (NamedStacks.Answer.truth (s.isEmpty name)) =
      .ok (.truth (t.shared.placed.isEmpty name))
    rw [h.cells.isEmpty_eq, h.placed.isEmpty_eq, List.isEmpty_map]
  | tryPeek name =>
    refine ⟨?_, f, h⟩
    show Except.ok (NamedStacks.Answer.cell (s.tryPeek name)) =
      .ok (.cell (((t.shared.placed.tryPeek name).map fun c => (c, t.shared.held c)).map (·.2)))
    rw [h.tryPeek_eq, Option.map_map]
    rfl
  | peek name =>
    refine ⟨?_, f, h⟩
    show (s.peek name).map (.cell ∘ some) =
      ((t.shared.placed.peek name).map fun c =>
        Answer.cell (some (c, t.shared.held c))).map Answer.seen
    have htop := h.tryPeek_eq name
    cases hpeek : t.shared.placed.tryPeek name with
    | none =>
      rw [hpeek] at htop
      rw [NamedStacks.peek_of_nil htop, NamedStacks.peek_of_nil hpeek]
      rfl
    | some c =>
      rw [hpeek] at htop
      rw [NamedStacks.peek_of_tryPeek htop, NamedStacks.peek_of_tryPeek hpeek]
      rfl
  | tryPop name =>
    simp only [NamedStacks.apply, Owned.apply, Owned.onStack, applyUnder]
    cases hlist : f name with
    | nil =>
      obtain ⟨hs, ht⟩ := h.pop_nil hlist
      rw [hs, ht]
      exact ⟨rfl, f, h⟩
    | cons c rest =>
      obtain ⟨s', placed, hs, ht, hpopped⟩ := h.pop_cons hlist
      rw [hs, ht]
      exact ⟨rfl, _, hpopped⟩
  | pop name =>
    simp only [NamedStacks.apply, Owned.apply, Owned.onStack, applyUnder]
    cases hlist : f name with
    | nil =>
      obtain ⟨hs, ht⟩ := h.pop_nil hlist
      rw [NamedStacks.pop_of_nil hs, NamedStacks.pop_of_nil ht]
      exact ⟨rfl, f, h⟩
    | cons c rest =>
      obtain ⟨s', placed, hs, ht, hpopped⟩ := h.pop_cons hlist
      rw [NamedStacks.pop_of_tryPop hs, NamedStacks.pop_of_tryPop ht]
      exact ⟨rfl, _, hpopped⟩
  | push name v =>
    have hassign (c : Cell) : c.apply (.assign v) = Cell.apply.update c (Cell.ofValue v) := rfl
    simp only [NamedStacks.apply, Owned.apply, change, changeCell, hassign]
    cases Cell.ofValue v with
    | error fault => exact ⟨rfl, f, h⟩
    | ok cell =>
      -- Only the new cell has changed, and no stack had it.
      have hpush := h.cells.push name cell
      have hplaced := h.placed.push name t.next
      exact ⟨rfl, _, h.pushed name cell (fun c hlt => if_neg (Nat.ne_of_lt hlt)) (if_pos rfl)
        hplaced hpush⟩
  | increment name v =>
    simp only [NamedStacks.apply, NamedStacks.increment, Owned.apply, Owned.onStack, applyUnder,
      h.cells.cells_eq]
    cases hlist : f name with
    | nil =>
      rw [NamedStacks.peek_of_nil (by rw [h.placed.tryPeek_eq, hlist]; rfl)]
      exact ⟨rfl, f, h⟩
    | cons c rest =>
      have hincrement : (t.shared.held c).apply (.increment v) =
        Cell.apply.update (t.shared.held c) ((t.shared.held c).increment v) := rfl
      rw [NamedStacks.peek_of_tryPeek (a := c) (by rw [h.placed.tryPeek_eq, hlist]; rfl),
        List.map_cons]
      simp only [change, changeCell, hincrement]
      cases (t.shared.held c).increment v with
      | error fault =>
        -- The cell is written back as it was, and so is a list with that cell on top.
        have hcells : s.Represents (Function.update (fun k => (f k).map t.shared.held) name
            (t.shared.held c :: rest.map t.shared.held)) :=
          h.cells.of_cells (by rw [hlist, List.map_cons])
        exact ⟨rfl, f, h.changed hlist _ hcells⟩
      | ok cell =>
        exact ⟨rfl, f, h.changed hlist cell
          (h.cells.setCells name (cell :: rest.map t.shared.held))⟩

end Mirrors

end Owned

/-- A caller who makes a cell for every value that he pushes is answered by stacks of whole cells as
by stacks that hold identities, and what is seen of a stack is what stands on it. -/
theorem replies_own (held : CellId → Cell) (ops : List NamedStacks.Op) :
    (replies NamedStacks.apply .empty ops).1 = (replies Owned.apply ⟨⟨held, .empty⟩, 0⟩ ops).1 ∧
      ∀ name, (replies NamedStacks.apply .empty ops).2.cells name =
        (replies Owned.apply ⟨⟨held, .empty⟩, 0⟩ ops).2.shared.values name := by
  obtain ⟨hanswers, f, hlast⟩ := replies_agree (R := fun s t => ∃ f, Owned.Mirrors t s f)
    (fun s t op h => h.elim fun f h => h.apply op) ⟨_, Owned.Mirrors.start held 0⟩ ops
  refine ⟨hanswers, fun name => ?_⟩
  rw [values, hlast.cells.cells_eq, hlast.placed.cells_eq]

end CellStacks

end Stencil
