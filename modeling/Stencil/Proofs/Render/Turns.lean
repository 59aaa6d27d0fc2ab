import Stencil.Proofs.Node.RoundTrip
import Stencil.Proofs.Render.Scoping
import Stencil.Proofs.Value.Order

/-!
# The turns of a loop

`Visits` says which runs the turns of a loop start in, one after the other. A loop that is not
refused returns exactly if some turn is the first one whose value compares as above the end
(`Run.loop_eq_returned_iff`).

A loop that goes up should have `Loop.trips` turns, as many as it has values up to its end. That it
has is a matter of doubles: the first value above the end must also compare as above it
(`Run.visit_loop_trips`). Up to `2 ^ 53` it does.
-/

set_option autoImplicit false

namespace Stencil

open Double (Fits)

/-! ## In and out of a turn -/

namespace NamedStacks

theorem tryPeek_push (s : NamedStacks) (name : String) (c : Cell) :
    (s.push name c).tryPeek name = some c := by
  rw [tryPeek, cells_push, if_pos rfl]
  rfl

theorem exists_tryPop_push (s : NamedStacks) (name : String) (c : Cell) :
    ∃ s', (s.push name c).tryPop name = some (c, s') := by
  have hcells := cells_push s name name c
  rw [if_pos rfl] at hcells
  obtain ⟨s', hpop, -⟩ := exists_tryPop hcells
  exact ⟨s', hpop⟩

end NamedStacks

namespace Run

variable {σ : Type}

def within (r : Run σ) (head : Loop) (turn : Nat) : Run σ :=
  { r with vars := r.vars.push head.name ⟨.integer (head.value turn)⟩ }

def without (r : Run σ) (name : String) : Run σ :=
  { r with vars := (r.vars.tryPop name).elim r.vars Prod.snd }

/-- After so many visits to the body of a loop, each of which has returned, `s` is the run in which
the next turn starts. -/
inductive Visits (body : Run σ → Ending × Run σ) (head : Loop) (r : Run σ) : Nat → Run σ → Prop
  | start : Visits body head r 0 (r.within head 0)
  | next {turn : Nat} {s s' : Run σ} (h : Visits body head r turn s)
      (hb : body s = (.returned, s')) :
      Visits body head r (turn + 1) ((s'.without head.name).within head (turn + 1))

end Run

namespace Loop

variable {l : Loop} {count count' : Nat}

def Continues (l : Loop) (turn : Nat) : Prop := ∃ sign, l.compare turn = .ok sign ∧ sign ≤ 0

/-- The turn whose value is the first one that compares as above the end. Not every loop has one:
some go on for ever, and some meet a value that can not be compared. -/
structure HasTurns (l : Loop) (count : Nat) : Prop where
  below : ∀ turn < count, l.Continues turn
  above : ∃ sign, l.compare count = .ok sign ∧ ¬ sign ≤ 0

theorem HasTurns.not_continues (h : l.HasTurns count) : ¬ l.Continues count := by
  rintro ⟨sign, hc, hs⟩
  obtain ⟨sign', hc', hs'⟩ := h.above
  rw [hc, Except.ok.injEq] at hc'
  exact hs' (hc' ▸ hs)

theorem HasTurns.unique (h : l.HasTurns count) (h' : l.HasTurns count') : count = count' := by
  rcases Nat.lt_trichotomy count count' with hlt | heq | hlt
  · exact absurd (h'.below count hlt) h.not_continues
  · exact heq
  · exact absurd (h.below count' hlt) h'.not_continues

/-! ## How many turns there should be -/

/-- How many values of a loop that goes up are not above its end, counted with integers. The loop
itself compares doubles and can have more turns than that; `Exact` says when it has not. -/
def trips (l : Loop) : Nat := ((l.stop - l.start).fdiv l.stride + 1).toNat

theorem value_le_iff (hstride : 0 < l.stride) (turn : Nat) :
    l.value turn ≤ l.stop ↔ turn < l.trips := by
  have hquotient : (turn : Int) ≤ (l.stop - l.start).fdiv l.stride ↔
      turn * l.stride ≤ l.stop - l.start := by
    rw [Int.fdiv_eq_ediv_of_nonneg _ (Int.le_of_lt hstride), Int.le_ediv_iff_mul_le hstride]
  unfold value trips
  omega

theorem value_mono (hstride : 0 < l.stride) {turn turn' : Nat} (h : turn ≤ turn') :
    l.value turn ≤ l.value turn' := by
  have := Int.mul_le_mul_of_nonneg_right (Int.ofNat_le.2 h) (Int.le_of_lt hstride)
  unfold value
  omega

theorem start_le_value (hstride : 0 < l.stride) (turn : Nat) : l.start ≤ l.value turn := by
  rw [← Run.value_zero l]
  exact value_mono hstride (Nat.zero_le turn)

/-- The first value above the end compares as above it too, and every value can be compared. Values
grow, so for the second part it is enough that the first one can, if there is one. -/
def Exact (l : Loop) : Prop := l.compare l.trips = .ok 1 ∧ (0 < l.trips → Fits l.start)

theorem compare_eq_ok_iff {turn : Nat} {sign : Int} :
    l.compare turn = .ok sign ↔ Fits (l.value turn) ∧ Fits l.stop ∧
      sign = (Double.level (l.value turn) - Double.level l.stop).sign :=
  Cell.compare_integer_eq_ok_iff

theorem hasTurns_trips_iff (hstride : 0 < l.stride) : l.HasTurns l.trips ↔ l.Exact := by
  constructor
  · intro h
    obtain ⟨sign, hc, hs⟩ := h.above
    refine ⟨?_, fun htrips => ?_⟩
    · obtain ⟨-, -, rfl⟩ := compare_eq_ok_iff.1 hc
      rw [hc, Int.sign_eq_one_of_pos]
      exact Int.not_le.1 fun hle => hs (Int.sign_nonpos_iff.2 hle)
    · obtain ⟨_, hfirst, -⟩ := h.below 0 htrips
      rw [← Run.value_zero l]
      exact (compare_eq_ok_iff.1 hfirst).1
  · rintro ⟨habove, hstart⟩
    refine ⟨fun turn hturn => ?_, 1, habove, by decide⟩
    -- All values lie between the start and the end.
    have hle := (value_le_iff hstride turn).2 hturn
    have hfrom : l.start ≤ l.value turn := start_le_value hstride turn
    have hstop : Fits l.stop := (compare_eq_ok_iff.1 habove).2.1
    have hvalue : Fits (l.value turn) := (hstart (by omega)).between hstop hfrom hle
    have hc := Cell.compare_integer hvalue hstop
    exact ⟨_, hc, Cell.compare_le_of_le hle hc⟩

/-- No value up to the end is left out, as far as values can be compared. Rounding can make a value
above the end equal to it, so a loop may have more turns than it should, but never fewer. -/
theorem HasTurns.trips_le (h : l.HasTurns count) (hstride : 0 < l.stride) : l.trips ≤ count := by
  by_contra hlt
  obtain ⟨sign, hc, hs⟩ := h.above
  exact hs (Cell.compare_le_of_le ((value_le_iff hstride count).2 (by omega)) hc)

/-- Up to `2 ^ 53`, where doubles tell all whole numbers apart, turns are as they should be. The
first value above the end has to be in there too, since it is compared like the others. -/
theorem exact_of_le (hstride : 0 < l.stride) (hstart : l.start.natAbs ≤ 2 ^ 53)
    (hstop : l.stop.natAbs ≤ 2 ^ 53) (hend : l.stop + l.stride ≤ 2 ^ 53) : l.Exact := by
  have habove : l.stop < l.value l.trips := by
    have := value_le_iff hstride l.trips
    omega
  have hvalue : (l.value l.trips).natAbs ≤ 2 ^ 53 := by
    rcases Nat.eq_zero_or_pos l.trips with hzero | hpos
    · rw [hzero, Run.value_zero]
      exact hstart
    · -- The value before is not above the end.
      obtain ⟨turn, hturn⟩ := Nat.exists_eq_succ_of_ne_zero (Nat.ne_of_gt hpos)
      have hbefore := (value_le_iff hstride turn).2 (by omega)
      rw [hturn, value_succ] at habove ⊢
      omega
  exact ⟨Cell.compare_of_lt habove hvalue hstop, fun _ => Double.fits_of_le hstart⟩

end Loop

/-! ## The engine -/

theorem render_of_parse {σ : Type} [Sink σ] {template : String} {document : Node} {sink : σ}
    {limit : Nat} {ending : Ending} (hparse : parse template = .ok document)
    (hending : (Engine.execute limit ⟨document, sink⟩ [.parsed document.children.length]).1 =
      ending) :
    render limit template sink = .ok (ending,
      (Engine.execute limit ⟨document, sink⟩ [.parsed document.children.length]).2) := by
  rw [render, hparse, ← hending]
  rfl

namespace Run

section

variable {σ : Type} {body : Run σ → Ending × Run σ} {head : Loop} {r s s' : Run σ} {turn : Nat}

@[simp] theorem tryPeek_within (r : Run σ) (head : Loop) (turn : Nat) :
    (r.within head turn).vars.tryPeek head.name = some ⟨.integer (head.value turn)⟩ :=
  NamedStacks.tryPeek_push _ _ _

theorem Visits.exists_within (h : Visits body head r turn s) :
    ∃ outer, s = within outer head turn := by
  cases h with
  | start => exact ⟨r, rfl⟩
  | next _ _ => exact ⟨_, rfl⟩

theorem Visits.tryPeek (h : Visits body head r turn s) :
    s.vars.tryPeek head.name = some ⟨.integer (head.value turn)⟩ := by
  obtain ⟨outer, rfl⟩ := h.exists_within
  exact tryPeek_within outer head turn

theorem Visits.tryPop (h : Visits body head r turn s) :
    ∃ vars, s.vars.tryPop head.name = some (⟨.integer (head.value turn)⟩, vars) := by
  obtain ⟨outer, rfl⟩ := h.exists_within
  exact NamedStacks.exists_tryPop_push _ _ _

theorem without_of_tryPop {name : String} {c : Cell} {vars : NamedStacks}
    (h : r.vars.tryPop name = some (c, vars)) : r.without name = { r with vars } := by
  rw [without, h]
  rfl

theorem tryPop_of_returned (hbody : Balanced body) (h : Visits body head r turn s)
    (hb : body s = (.returned, s')) :
    ∃ vars, s'.vars.tryPop head.name = some (⟨.integer (head.value turn)⟩, vars) := by
  obtain ⟨outer, rfl⟩ := h.exists_within
  have hcells := hbody _ _ hb head.name
  rw [within, NamedStacks.cells_push, if_pos rfl] at hcells
  obtain ⟨vars, hpop, -⟩ := NamedStacks.exists_tryPop hcells
  exact ⟨vars, hpop⟩

theorem turns_of_visit (hbody : Balanced body) (h : Visits body head r turn s)
    (hcontinues : head.Continues turn) (hb : body s = (.returned, s')) (limit : Nat) :
    turns body head.name head.stop head.stride (limit + 1) turn s =
      turns body head.name head.stop head.stride limit (turn + 1)
        ((s'.without head.name).within head (turn + 1)) := by
  obtain ⟨sign, hc, hs⟩ := hcontinues
  obtain ⟨vars, hpop⟩ := tryPop_of_returned hbody h hb
  rw [turns_of_returned h.tryPeek hc hs hb hpop (increment_value head turn), without_of_tryPop hpop]
  rfl

/-- The visits that a loop makes first leave it with so many turns less. Counting them off the limit
is what lets a whole loop be put together from its turns. -/
theorem turns_of_visits (hbody : Balanced body) (h : Visits body head r turn s) :
    (∀ t < turn, head.Continues t) → ∀ limit,
      turns body head.name head.stop head.stride (limit + turn) 0 (r.within head 0) =
        turns body head.name head.stop head.stride limit turn s := by
  induction h with
  | start => exact fun _ _ => rfl
  | @next turn s s' h hb ih =>
    intro hbelow limit
    have hfirst := ih (fun t ht => hbelow t (by omega)) (limit + 1)
    rw [turns_of_visit hbody h (hbelow turn (by omega)) hb] at hfirst
    rw [← hfirst]
    congr 1
    omega

theorem turns_of_hasTurns (h : Visits body head r turn s) (hturns : head.HasTurns turn)
    (limit : Nat) :
    turns body head.name head.stop head.stride (limit + 1) turn s =
      (.returned, (s.without head.name).note (.loopFinished head.name turn)) := by
  obtain ⟨sign, hc, hs⟩ := hturns.above
  obtain ⟨vars, hpop⟩ := h.tryPop
  rw [turns_of_above h.tryPeek hc hs hpop, without_of_tryPop hpop]

/-- Turns that return come to one that is the first above the end. The induction is on the limit,
and any number of turns may have been made before. -/
theorem exists_visits_of_turns (hbody : Balanced body) (limit : Nat) :
    ∀ {turn : Nat} {s r' : Run σ}, Visits body head r turn s → (∀ t < turn, head.Continues t) →
      turns body head.name head.stop head.stride limit turn s = (.returned, r') →
        ∃ count < limit + turn, head.HasTurns count ∧ ∃ s', Visits body head r count s' ∧
          r' = (s'.without head.name).note (.loopFinished head.name count) := by
  induction limit with
  | zero =>
    intro turn s r' _ _ hrun
    exact absurd (Prod.mk.inj hrun).1 (by simp)
  | succ limit ih =>
    intro turn s r' h hbelow hrun
    cases hc : head.compare turn with
    | error fault =>
      rw [turns_of_error h.tryPeek hc] at hrun
      exact absurd (Prod.mk.inj hrun).1 (by simp)
    | ok sign =>
      by_cases hs : sign ≤ 0
      · have hcontinues : head.Continues turn := ⟨sign, hc, hs⟩
        cases hb : body s with
        | mk ending s' =>
        by_cases hreturned : ending = .returned
        · subst hreturned
          rw [turns_of_visit hbody h hcontinues hb] at hrun
          have hbelow' : ∀ t < turn + 1, head.Continues t := fun t ht => by
            rcases Nat.lt_succ_iff_lt_or_eq.1 ht with hlt | rfl
            · exact hbelow t hlt
            · exact hcontinues
          -- The limit and the turn change by one each, so their sum bounds the count as before.
          obtain ⟨count, hcount, hrest⟩ := ih (.next h hb) hbelow' hrun
          exact ⟨count, by omega, hrest⟩
        · rw [turns_of_ne_returned h.tryPeek hc hs hb hreturned] at hrun
          exact absurd (Prod.mk.inj hrun).1 hreturned
      · have hturns : head.HasTurns turn := ⟨hbelow, sign, hc, hs⟩
        rw [turns_of_hasTurns h hturns] at hrun
        exact ⟨turn, by omega, hturns, s, h, (Prod.mk.inj hrun).2.symm⟩

/-- A loop that is not refused returns after as many visits as it has turns, each of which has
returned, and takes its value off. -/
theorem loop_eq_returned_iff (hbody : Balanced body) (hr : ¬ head.Refused) (limit : Nat)
    (r' : Run σ) :
    loop limit head body r = (.returned, r') ↔
      ∃ count < limit, head.HasTurns count ∧ ∃ s, Visits body head r count s ∧
        r' = (s.without head.name).note (.loopFinished head.name count) := by
  rw [loop_of_not_refused hr]
  constructor
  · intro hrun
    exact exists_visits_of_turns hbody limit .start (by simp) hrun
  · rintro ⟨count, hcount, hturns, s, hvisits, rfl⟩
    obtain ⟨rest, rfl⟩ : ∃ rest, limit = rest + 1 + count := ⟨limit - 1 - count, by omega⟩
    exact (turns_of_visits hbody hvisits hturns.below (rest + 1)).trans
      (turns_of_hasTurns hvisits hturns rest)

end

variable {σ : Type} [Sink σ]

/-- A loop that goes up, and whose body returns on each visit, visits it once for each value up to
the end, if and only if the loop is exact. In a turn the variable has the value of that turn. A
loop that returns has left out no value up to its end, exact or not. -/
theorem visit_loop_trips {head : Loop} (hstride : 0 < head.stride) {body : List Node} {limit : Nat}
    {r s : Run σ} (hvisits : Visits (visitAll limit body) head r head.trips s)
    (hlimit : head.trips < limit) :
    (visit limit (.forLoop head body) r =
        (.returned, (s.without head.name).note (.loopFinished head.name head.trips)) ↔
      head.Exact) ∧
    (∀ turn, head.value turn ≤ head.stop ↔ turn < head.trips) ∧
    (∀ turn s, Visits (visitAll limit body) head r turn s →
      s.vars.tryPeek head.name = some ⟨.integer (head.start + turn * head.stride)⟩) ∧
    (∀ r', visit limit (.forLoop head body) r = (.returned, r') →
      ∃ count ≥ head.trips, ∃ s, Visits (visitAll limit body) head r count s ∧
        r' = (s.without head.name).note (.loopFinished head.name count)) ∧
    (head.start.natAbs ≤ 2 ^ 53 → head.stop.natAbs ≤ 2 ^ 53 → head.stop + head.stride ≤ 2 ^ 53 →
      head.Exact) := by
  have hr : ¬ head.Refused := fun hr => by
    have := hr.1
    omega
  have hloop := loop_eq_returned_iff (r := r) (visitAll_balanced limit body) hr limit
  rw [visit]
  refine ⟨?_, Loop.value_le_iff hstride, fun turn s h => h.tryPeek, ?_, Loop.exact_of_le hstride⟩
  · rw [← Loop.hasTurns_trips_iff hstride, hloop]
    refine ⟨?_, fun h => ⟨_, hlimit, h, s, hvisits, rfl⟩⟩
    rintro ⟨count, -, hturns, s', -, heq⟩
    -- The log tells how many turns the loop has made.
    have hlog := congrArg (fun r => r.log.head?) heq
    have hcount : head.trips = count := by simpa [note] using hlog
    rwa [hcount]
  · intro r' hrun
    obtain ⟨count, -, hturns, hrest⟩ := (hloop r').1 hrun
    exact ⟨count, hturns.trips_le hstride, hrest⟩

theorem visit_loop_trips_by_three :
    ∃ r s : Run TextSink, Visits (visitAll 5 [.echo [.variable "i"]]) ⟨"i", 0, 10, some 3⟩ r 4 s ∧
      visit 5 (.forLoop ⟨"i", 0, 10, some 3⟩ [.echo [.variable "i"]]) r =
        (.returned, (s.without "i").note (.loopFinished "i" 4)) ∧
      s.sink.body = "0369" := by
  let head : Loop := ⟨"i", 0, 10, some 3⟩
  let r : Run TextSink := ⟨.start (.start .empty .empty) "UTF-8", .empty, []⟩
  have hstride : 0 < head.stride := by decide
  have hexact : head.Exact := Loop.exact_of_le hstride (by decide) (by decide) (by decide)
  have hreturned : (visit 5 (.forLoop head [.echo [.variable "i"]]) r).1 = .returned := by
    decide +kernel
  obtain ⟨count, -, hturns, s, hvisits, -⟩ :=
    (loop_eq_returned_iff (visitAll_balanced 5 [.echo [.variable "i"]])
      (fun hr => absurd hr.1 (by decide)) 5 _).1 (Prod.ext hreturned rfl)
  obtain rfl : count = 4 := hturns.unique ((Loop.hasTurns_trips_iff hstride).2 hexact)
  obtain ⟨hiff, -⟩ := visit_loop_trips hstride hvisits (by decide)
  have hrun := hiff.2 hexact
  refine ⟨r, s, hvisits, hrun, ?_⟩
  have hbody : (visit 5 (.forLoop head [.echo [.variable "i"]]) r).2.sink.body = "0369" := by
    decide +kernel
  rwa [hrun] at hbody

/-- The double nearest to `2 ^ 53 + 1` is `2 ^ 53`. So a loop from `2 ^ 53` to `2 ^ 53` has a second
turn, though there is only one value up to its end. -/
theorem not_visit_loop_trips :
    (⟨"i", 2 ^ 53, 2 ^ 53, none⟩ : Loop).trips = 1 ∧
      ∃ r, renderText 3
          "\x7b$FOR i 9007199254740992 9007199254740992$\x7d\x7b$= i $\x7d\x7b$END$\x7d"
          .empty .empty = .ok (.returned, r) ∧
        r.sink.body = "90071992547409929007199254740993" ∧
        r.log.head? = some (.loopFinished "i" 2) := by
  have hparse : parse
      "\x7b$FOR i 9007199254740992 9007199254740992$\x7d\x7b$= i $\x7d\x7b$END$\x7d" =
      .ok (.document [.forLoop ⟨"i", 2 ^ 53, 2 ^ 53, none⟩ [.echo [.variable "i"]]]) :=
    parse_tags
      ["\x7b$FOR i 9007199254740992 9007199254740992$\x7d".toList, "\x7b$= i $\x7d".toList,
        "\x7b$END$\x7d".toList]
      rfl
      (.cons ⟨⟨"$FOR i 9007199254740992 9007199254740992$".toList, rfl, by decide⟩, rfl⟩
        (.cons ⟨⟨"$= i $".toList, rfl, by decide⟩, rfl⟩
          (.cons ⟨⟨"$END$".toList, rfl, by decide⟩, rfl⟩ .nil)))
      (.loop (.echo .nil) .nil)
  exact ⟨by decide, _, render_of_parse hparse (by decide +kernel), by decide +kernel,
    by decide +kernel⟩

end Run

end Stencil
