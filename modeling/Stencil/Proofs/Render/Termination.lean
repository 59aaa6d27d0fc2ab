import Stencil.Proofs.Render.Turns

/-!
# Where renders end

A loop with a step other than zero ends for a plain reason: its value leaves the range of doubles at
last, and then it can not be compared any more. A loop with a step of zero ends only if it has no
turn, and this is what the check before a loop is for. The check compares whole numbers though,
while the turns are decided by doubles: a loop is `Level` if its start is above its end and both
have the same double, and then it has turns that the check does not see.

`render_ends` says that all other templates end. A `Stuck` loop, which is level and has the step
zero, never ends unless its body fails (`Run.visit_of_stuck`).
-/

set_option autoImplicit false

namespace Stencil

open Double (Fits)

/-! ## The loops of a tree -/

mutual

def Node.loops : Node → List Loop
  | .document children => Node.loopsOfAll children
  | .text _ => []
  | .echo _ => []
  | .forLoop head body => head :: Node.loopsOfAll body

def Node.loopsOfAll : List Node → List Loop
  | [] => []
  | n :: ns => n.loops ++ Node.loopsOfAll ns

end

namespace Loop

/-- The start is above the end, but both have the same double. Whether a loop is refused is decided
by the integers, and whether its body is visited by the doubles; here the two do not agree. -/
def Level (l : Loop) : Prop := l.stop < l.start ∧ l.compare 0 = .ok 0

/-- The value stays where it is, and is never found to be above the end. -/
def Stuck (l : Loop) : Prop := l.stride = 0 ∧ l.Level

theorem value_of_stride_zero {l : Loop} (h : l.stride = 0) (turn : Nat) :
    l.value turn = l.start := by
  simp [value, h]

theorem compare_of_stride_zero {l : Loop} (h : l.stride = 0) (turn : Nat) :
    l.compare turn = l.compare 0 := by
  rw [compare, compare, value_of_stride_zero h, value_of_stride_zero h]

theorem lt_of_not_refused {l : Loop} (hstride : l.stride ≤ 0) (h : ¬ l.Refused) :
    l.stop < l.start := by
  by_contra hle
  exact h ⟨hstride, by omega⟩

/-- A loop with its start above its end is found above it at once, unless it is level. Rounding
keeps the order of the two, so all that it can do is to make them equal. -/
theorem compare_pos {l : Loop} {sign : Int} (h : l.stop < l.start) (hlevel : ¬ l.Level)
    (hc : l.compare 0 = .ok sign) : ¬ sign ≤ 0 := by
  have hle : l.stop ≤ l.value 0 := by
    rw [Run.value_zero]
    omega
  have hsign : 0 ≤ sign := Cell.le_compare_of_le hle hc
  intro hs
  obtain rfl : sign = 0 := by omega
  exact hlevel ⟨h, hc⟩

/-- A loop that moves leaves the range of doubles. So if its body never fails, it comes to a value
above its end or to one that can not be compared, and ends with either. -/
theorem exists_not_fits {l : Loop} (h : l.stride ≠ 0) :
    ∃ last, ∀ turn ≥ last, ¬ Fits (l.value turn) := by
  refine ⟨2 ^ 1024 + l.start.natAbs, fun turn hturn hfits => ?_⟩
  have hlt := Double.natAbs_lt_of_fits hfits
  have hway : turn ≤ (turn * l.stride).natAbs := by
    rw [Int.natAbs_mul, Int.natAbs_natCast]
    exact Nat.le_mul_of_pos_right turn (by omega)
  unfold value at hlt
  generalize 2 ^ 1024 = bound at *
  omega

theorem exists_compare_eq_error {l : Loop} (h : l.stride ≠ 0) :
    ∃ last, ∀ turn ≥ last, l.compare turn = .error .tooLarge := by
  obtain ⟨last, hlast⟩ := exists_not_fits h
  refine ⟨last, fun turn hturn => ?_⟩
  exact Cell.compare_integer_of_not_fits fun hfits => hlast turn hturn hfits.1

end Loop

/-! ## The reference ends -/

variable {σ : Type} [Sink σ]

def Task.Total (σ : Type) [Sink σ] (task : Task) : Prop :=
  ∀ (env : Env) (o : Seen σ), ∃ result o', Reference env task o result o'

namespace Task

variable {head : Loop} {body : List Node}

theorem total_turns (hbody : Total σ (.nodes body)) {last : Nat}
    (hlast : ∀ turn ≥ last, head.compare turn = .error .tooLarge) (left : Nat) :
    ∀ turn, last ≤ turn + left → Total σ (.turns head body turn) := by
  induction left with
  | zero =>
    intro turn hturn env o
    exact ⟨_, _, .incomparable (hlast turn hturn)⟩
  | succ left ih =>
    intro turn hturn env o
    cases hc : head.compare turn with
    | error fault => exact ⟨_, _, .incomparable hc⟩
    | ok sign =>
      by_cases hs : sign ≤ 0
      · obtain ⟨result, middle, hb⟩ := hbody ((head.name, head.value turn) :: env) o
        cases result with
        | error fault => exact ⟨_, _, .broken hc hs hb⟩
        | ok _ =>
          obtain ⟨result, o', hrest⟩ := ih (turn + 1) (by omega) env middle
          exact ⟨result, o', .turn hc hs hb hrest⟩
      · exact ⟨_, _, .finished hc hs⟩

theorem total_turns_of_above (h : head.stop < head.start) (hlevel : ¬ head.Level) :
    Total σ (.turns head body 0) := by
  intro env o
  cases hc : head.compare 0 with
  | error fault => exact ⟨_, _, .incomparable hc⟩
  | ok sign => exact ⟨_, _, .finished hc (Loop.compare_pos h hlevel hc)⟩

theorem total_loop (hbody : Total σ (.nodes body)) (hstuck : ¬ head.Stuck) :
    Total σ (.node (.forLoop head body)) := by
  intro env o
  by_cases hr : head.Refused
  · exact ⟨_, _, .refused hr⟩
  have hturns : Total σ (.turns head body 0) := by
    by_cases hstride : head.stride = 0
    · have habove := Loop.lt_of_not_refused (Int.le_of_eq hstride) hr
      exact total_turns_of_above habove fun hlevel => hstuck ⟨hstride, hlevel⟩
    · obtain ⟨last, hlast⟩ := Loop.exists_compare_eq_error hstride
      exact total_turns hbody hlast last 0 (by omega)
  obtain ⟨result, o', h⟩ := hturns env o
  exact ⟨result, o', .loop hr h⟩

mutual

theorem total_node : ∀ n : Node, (∀ l ∈ n.loops, ¬ l.Stuck) → Total σ (.node n)
  | .document children, h => fun env o => by
    obtain ⟨result, o', hall⟩ := total_nodes children h env o
    exact ⟨result, o', .document hall⟩
  | .text content, _ => fun _ o => ⟨_, _, .text content o⟩
  | .echo elements, _ => fun env o => ⟨_, _, .echo env elements o⟩
  | .forLoop head body, h => by
    have hbody := total_nodes body fun l hl => h l (List.mem_cons_of_mem _ hl)
    exact total_loop hbody (h head List.mem_cons_self)

theorem total_nodes : ∀ ns : List Node, (∀ l ∈ Node.loopsOfAll ns, ¬ l.Stuck) → Total σ (.nodes ns)
  | [], _ => fun _ _ => ⟨_, _, .nil⟩
  | n :: ns, h => fun env o => by
    have hn := total_node n fun l hl => h l (List.mem_append_left _ hl)
    have hns := total_nodes ns fun l hl => h l (List.mem_append_right _ hl)
    obtain ⟨result, middle, hfirst⟩ := hn env o
    cases result with
    | error fault => exact ⟨_, _, .failed hfirst⟩
    | ok _ =>
      obtain ⟨result, o', hrest⟩ := hns env middle
      exact ⟨result, o', .cons hfirst hrest⟩

end

end Task

/-! ## What the check lets pass -/

namespace Run

omit [Sink σ]

variable {head : Loop} {r : Run σ}

theorem loop_of_level (h : head.Level) (limit : Nat) (body : Run σ → Ending × Run σ)
    {ending : Ending} {r' : Run σ} (hne : ending ≠ .returned)
    (hb : body (r.within head 0) = (ending, r')) : loop (limit + 1) head body r = (ending, r') := by
  have hr : ¬ head.Refused := fun hr => Int.not_le.2 h.1 hr.2
  rw [loop_of_not_refused hr]
  exact turns_of_ne_returned (tryPeek_within r head 0) h.2 (Int.le_refl 0) hb hne limit

theorem exists_loop_eq (h : head.stop < head.start) (hlevel : ¬ head.Level) (limit : Nat) :
    ∃ outcome, ∀ body, loop (limit + 1) head body r = outcome := by
  have hr : ¬ head.Refused := fun hr => Int.not_le.2 h hr.2
  cases hc : head.compare 0 with
  | error fault =>
    refine ⟨(.failed (.value fault), r.within head 0), fun body => ?_⟩
    rw [loop_of_not_refused hr]
    exact turns_of_error (tryPeek_within r head 0) hc limit
  | ok sign =>
    have hturns : head.HasTurns 0 := ⟨by simp, sign, hc, Loop.compare_pos h hlevel hc⟩
    refine ⟨(.returned, ((r.within head 0).without head.name).note (.loopFinished head.name 0)),
      fun body => ?_⟩
    rw [loop_of_not_refused hr]
    exact turns_of_hasTurns .start hturns limit

/-- A loop whose step leads nowhere pays no heed to its body, unless it is level. Two bodies with
different endings tell a level loop from the others. -/
theorem exists_loop_eq_iff (hstride : head.stride ≤ 0) (limit : Nat) :
    (∃ outcome, ∀ body, loop (limit + 1) head body r = outcome) ↔ ¬ head.Level := by
  constructor
  · rintro ⟨outcome, h⟩ hlevel
    have hfirst := loop_of_level (r := r) hlevel limit (fun r => (.unfinished, r)) (by simp) rfl
    have hsecond := loop_of_level (r := r) hlevel limit (fun r => (.failed (.noVariable ""), r))
      (by simp) rfl
    rw [h] at hfirst hsecond
    rw [hfirst] at hsecond
    exact absurd (Prod.mk.inj hsecond).1 (by simp)
  · intro hlevel
    by_cases hr : head.Refused
    · exact ⟨_, fun body => loop_of_refused hr _ body⟩
    · exact exists_loop_eq (Loop.lt_of_not_refused hstride hr) hlevel limit

end Run

/-- A template that is accepted ends, provided that no loop in it is stuck. A loop with a step of
zero or less is refused if its start is not above its end; otherwise it leaves its body alone,
unless it is level. -/
theorem render_ends {template : String} {document : Node} (hparse : parse template = .ok document)
    (sink : σ) :
    ((∀ l ∈ document.loops, ¬ l.Stuck) →
      ∃ limit, ∀ more ≥ limit, ∃ result r,
        render more template sink = .ok (Ending.ofResult result, r)) ∧
      ∀ l ∈ document.loops, l.stride ≤ 0 → ∀ (limit : Nat) (r : Run σ),
        (l.start ≤ l.stop →
          ∀ body, Run.loop limit l body r = (.failed (.loopStep l.stride l.source), r)) ∧
        ((∃ outcome, ∀ body, Run.loop (limit + 1) l body r = outcome) ↔ ¬ l.Level) := by
  refine ⟨fun hloops => ?_, fun l _ hstride limit r => ⟨fun hle body => ?_, ?_⟩⟩
  · obtain ⟨result, o', href⟩ := Task.total_node document hloops []
      ⟨sink, errors [.executing, .parsed document.children.length]⟩
    obtain ⟨limit, hends⟩ := href.exists_limit
    refine ⟨limit, fun more hmore => ?_⟩
    obtain ⟨r, hrun, -⟩ := hends more hmore more hmore
      ⟨sink, .empty, [.executing, .parsed document.children.length]⟩ .empty rfl
    exact ⟨result, _, render_of_parse hparse (congrArg Prod.fst hrun)⟩
  · exact Run.loop_of_refused ⟨hstride, hle⟩ limit body
  · exact Run.exists_loop_eq_iff hstride limit

theorem render_ends_down :
    ∃ document, parse "\x7b$FOR i 3 1 -1$\x7d\x7b$END$\x7d" = .ok document ∧
      document.loops = [⟨"i", 3, 1, some (-1)⟩] ∧
      (∃ limit, ∀ more ≥ limit, ∃ result r,
        renderText more "\x7b$FOR i 3 1 -1$\x7d\x7b$END$\x7d" .empty .empty =
          .ok (Ending.ofResult result, r)) ∧
      ∀ r : Run TextSink, ∃ outcome, ∀ body,
        Run.loop 1 ⟨"i", 3, 1, some (-1)⟩ body r = outcome := by
  have hparse : parse "\x7b$FOR i 3 1 -1$\x7d\x7b$END$\x7d" =
      .ok (.document [.forLoop ⟨"i", 3, 1, some (-1)⟩ []]) :=
    parse_tags ["\x7b$FOR i 3 1 -1$\x7d".toList, "\x7b$END$\x7d".toList] rfl
      (.cons ⟨⟨"$FOR i 3 1 -1$".toList, rfl, by decide⟩, rfl⟩
        (.cons ⟨⟨"$END$".toList, rfl, by decide⟩, rfl⟩ .nil))
      (.loop .nil .nil)
  obtain ⟨hends, hloops⟩ := render_ends hparse (TextSink.start (.start .empty .empty) "UTF-8")
  refine ⟨_, hparse, rfl, hends ?_, fun r => ?_⟩
  · intro l hl hstuck
    obtain rfl := List.mem_singleton.1 hl
    exact absurd hstuck.1 (by decide)
  · have hlevel : ¬ (⟨"i", 3, 1, some (-1)⟩ : Loop).Level := fun h => absurd h.2 (by decide +kernel)
    exact ((hloops _ List.mem_cons_self (by decide) 0 r).2).2 hlevel

/-! ## Loops that are stuck -/

namespace Reference

theorem not_turns_of_stuck {head : Loop} {body : List Node} (hstuck : head.Stuck)
    (hbody : ∀ env (o : Seen σ) fault o', ¬ Reference env (.nodes body) o (.error fault) o')
    {env : Env} {turn : Nat} {o o' : Seen σ} {result : Except EvalFault Unit} :
    ¬ Reference env (.turns head body turn) o result o' := by
  have hc (turn : Nat) : head.compare turn = .ok 0 :=
    (Loop.compare_of_stride_zero hstuck.1 turn).trans hstuck.2.2
  intro h
  generalize htask : Task.turns head body turn = task at h
  induction h generalizing turn with
  | incomparable hc' =>
    cases htask
    exact absurd ((hc _).symm.trans hc') (by simp)
  | finished hc' hs =>
    cases htask
    rw [hc, Except.ok.injEq] at hc'
    exact hs (Int.le_of_eq hc'.symm)
  | turn _ _ _ _ _ ih =>
    cases htask
    exact ih rfl
  | broken _ _ hb _ =>
    cases htask
    exact hbody _ _ _ _ hb
  | _ => exact Task.noConfusion htask

end Reference

/-- A stuck loop never ends, if its body never fails: whatever the limit is, it is used up. This is
shown of the engine itself and not by way of the reference, where such a loop has no result at all.
-/
theorem Run.visit_of_stuck {head : Loop} (body : List Node) (hstuck : head.Stuck)
    (hbody : ∀ env (o : Seen σ) fault o', ¬ Reference env (.nodes body) o (.error fault) o')
    {env : Env} {r : Run σ} (hagrees : Agrees r.vars env) (limit : Nat) :
    (Run.visit limit (.forLoop head body) r).1 = .unfinished := by
  have hnone : ∀ result r',
      Run.visit limit (.forLoop head body) r ≠ (Ending.ofResult result, r') := by
    intro result r' hrun
    have href := Run.reference_of_visit limit _ env r result r' hagrees hrun
    generalize r.seen = o at href
    generalize r'.seen = o' at href
    cases href with
    | refused hr => exact Int.not_le.2 hstuck.2.1 hr.2
    | loop _ h => exact Reference.not_turns_of_stuck hstuck hbody h
  cases hrun : Run.visit limit (.forLoop head body) r with
  | mk ending r' =>
  cases ending with
  | returned => exact absurd hrun (hnone (.ok ()) r')
  | failed fault => exact absurd hrun (hnone (.error fault) r')
  | unfinished => rfl

theorem Engine.execute_of_stuck {head : Loop} (hstuck : head.Stuck) (sink : σ)
    (log : List LogRecord) (limit : Nat) :
    (Engine.execute limit ⟨.document [.forLoop head []], sink⟩ log).1 = .unfinished := by
  have hvisit := Run.visit_of_stuck (r := ⟨sink, .empty, .executing :: log⟩) [] hstuck
    (fun _ _ _ _ h => nomatch h) .empty limit
  rw [Engine.execute, Run.visit, Run.visitAll]
  cases hrun : Run.visit limit (.forLoop head []) ⟨sink, .empty, .executing :: log⟩ with
  | mk ending r =>
  rw [hrun] at hvisit
  obtain rfl : ending = .unfinished := hvisit
  rfl

/-- The double nearest to `2 ^ 53 + 1` is `2 ^ 53`. So the check lets a loop from the one to the
other with a step of zero pass, and yet the loop has turns: it visits its body, which may fail, and
if it does not the loop never ends. -/
theorem not_render_ends :
    (∃ r, renderText 1 ("\x7b$FOR i 9007199254740993 9007199254740992 0$\x7d" ++
        "\x7b$= + $\x7d\x7b$END$\x7d") .empty .empty = .ok (.failed (.underflow .plus 0), r)) ∧
      ∀ limit, ∃ r, renderText limit
        "\x7b$FOR i 9007199254740993 9007199254740992 0$\x7d\x7b$END$\x7d" .empty .empty =
          .ok (.unfinished, r) := by
  let head : Loop := ⟨"i", 2 ^ 53 + 1, 2 ^ 53, some 0⟩
  let opening : List Char := "\x7b$FOR i 9007199254740993 9007199254740992 0$\x7d".toList
  have hopening : Enclosed opening ∧ Tag.ofChars opening = .ok (.loop head) :=
    ⟨⟨"$FOR i 9007199254740993 9007199254740992 0$".toList, rfl, by decide⟩, rfl⟩
  have hclosing : Enclosed "\x7b$END$\x7d".toList ∧
      Tag.ofChars "\x7b$END$\x7d".toList = .ok .close :=
    ⟨⟨"$END$".toList, rfl, by decide⟩, rfl⟩
  constructor
  · have hparse : parse ("\x7b$FOR i 9007199254740993 9007199254740992 0$\x7d" ++
        "\x7b$= + $\x7d\x7b$END$\x7d") =
        .ok (.document [.forLoop head [.echo [.operator .plus]]]) :=
      parse_tags [opening, "\x7b$= + $\x7d".toList, "\x7b$END$\x7d".toList] rfl
        (.cons hopening (.cons ⟨⟨"$= + $".toList, rfl, by decide⟩, rfl⟩ (.cons hclosing .nil)))
        (.loop (.echo .nil) .nil)
    exact ⟨_, render_of_parse hparse (by decide +kernel)⟩
  · intro limit
    have hparse : parse "\x7b$FOR i 9007199254740993 9007199254740992 0$\x7d\x7b$END$\x7d" =
        .ok (.document [.forLoop head []]) :=
      parse_tags [opening, "\x7b$END$\x7d".toList] rfl
        (.cons hopening (.cons hclosing .nil)) (.loop .nil .nil)
    have hstuck : head.Stuck := ⟨rfl, by decide, by decide +kernel⟩
    exact ⟨_, render_of_parse hparse (Engine.execute_of_stuck hstuck _ _ limit)⟩

end Stencil
