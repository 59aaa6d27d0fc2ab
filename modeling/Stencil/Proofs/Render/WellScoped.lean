import Stencil.Proofs.Render.Faults

/-!
# Templates that can not go wrong

A tree is `WellScoped` if each variable stands in a loop of its name, each function is an operation,
no echo has an operator, and the bounds and steps of loops are moderate. The values on the stacks
of its echoes are then all of a kind that can be written, whatever the operations leave there, and
its loops come to values above their ends well within the range of doubles. So its render returns
(`render_of_wellScoped`).
-/

set_option autoImplicit false

namespace Stencil

open Double (Fits level wholeRank)

/-! ## Moderate loops -/

namespace Loop

variable {l : Loop}

/-- A loop that goes up has a last turn if there is some number that compares as above its end, and
the loop can step over that number within the range of doubles. -/
theorem exists_hasTurns (hstride : 0 < l.stride) (hstart : Fits l.start) (hstop : Fits l.stop)
    {top : Int} (hlevel : level l.stop < level top) (htop : Fits (top + l.stride)) :
    ∃ count, l.HasTurns count := by
  -- The first turn whose value is above that number.
  let last := Loop.trips { l with stop := top }
  have hle (turn : Nat) : l.value turn ≤ top ↔ turn < last :=
    value_le_iff (l := { l with stop := top }) hstride turn
  have habove : top ≤ l.value last := by
    have := hle last
    omega
  have hvalue : Fits (l.value last) := by
    rcases Nat.eq_zero_or_pos last with hzero | hpos
    · rw [hzero, Run.value_zero]
      exact hstart
    · obtain ⟨turn, hturn⟩ := Nat.exists_eq_succ_of_ne_zero (Nat.ne_of_gt hpos)
      have hbefore := (hle turn).2 (by omega)
      have hnext : l.value last ≤ top + l.stride := by
        rw [hturn, value_succ]
        omega
      exact hstart.between htop (start_le_value hstride last) hnext
  have hlast : ∃ sign, l.compare last = .ok sign ∧ ¬ sign ≤ 0 := by
    have hmono := Double.level_mono habove
    refine ⟨_, Cell.compare_integer hvalue hstop, ?_⟩
    rw [Int.sign_eq_one_of_pos (by omega)]
    decide
  -- The turns before the first one that compares as above the end have values that fit.
  classical
  have hexists : ∃ turn sign, l.compare turn = .ok sign ∧ ¬ sign ≤ 0 := ⟨last, hlast⟩
  refine ⟨Nat.find hexists, fun turn hturn => ?_, Nat.find_spec hexists⟩
  have hbefore : turn ≤ last := by
    have := Nat.find_min' hexists hlast
    omega
  have hfits : Fits (l.value turn) :=
    hstart.between hvalue (start_le_value hstride turn) (value_mono hstride hbefore)
  have hc := Cell.compare_integer hfits hstop
  exact ⟨_, hc, by_contra fun hs => Nat.find_min hexists hturn ⟨_, hc, hs⟩⟩

/-- Bounds of a magnitude below `2 ^ 1000`, and a step that is absent, or positive and below `2 ^
1000`. Doubles go up to `2 ^ 1024`, which leaves room for the value that is first above the end. -/
structure Moderate (l : Loop) : Prop where
  start : l.start.natAbs < 2 ^ 1000
  stop : l.stop.natAbs < 2 ^ 1000
  step : ∀ step, l.step = some step → 0 < step ∧ step < 2 ^ 1000

namespace Moderate

theorem stride (h : l.Moderate) : 0 < l.stride ∧ l.stride < 2 ^ 1000 := by
  unfold Loop.stride
  cases hstep : l.step with
  | none => exact ⟨by decide, by decide +kernel⟩
  | some step => exact h.step step hstep

theorem not_refused (h : l.Moderate) : ¬ l.Refused :=
  fun hr => Int.not_le.2 h.stride.1 hr.1

theorem fits_of_le {n : Int} (h : n.natAbs ≤ 4 * 2 ^ 1000) : Fits n := by
  have hbound : wholeRank (4 * 2 ^ 1000) < Double.rankCount := by decide +kernel
  exact Nat.lt_of_le_of_lt (Double.wholeRank_mono h) hbound

theorem level_lt {n : Int} (h : n ≤ 2 ^ 1000) : level n < level (2 * 2 ^ 1000) := by
  have hbound : level (2 ^ 1000) < level (2 * 2 ^ 1000) := by decide +kernel
  exact Int.lt_of_le_of_lt (Double.level_mono h) hbound

/-- The turns of a moderate loop come to a value above its end: twice the greatest end compares as
above all of them, and the loop steps over that within the range of doubles. -/
theorem exists_hasTurns (h : l.Moderate) : ∃ count, l.HasTurns count := by
  obtain ⟨hpos, hstride⟩ := h.stride
  have hstart := h.start
  have hstop := h.stop
  have hcast : (2 : Int) ^ 1000 = (2 ^ 1000 : Nat) := by decide +kernel
  have hlevel : level l.stop < level (2 * 2 ^ 1000) := level_lt (by rw [hcast]; omega)
  rw [hcast] at hlevel hstride
  refine Loop.exists_hasTurns hpos (fits_of_le ?_) (fits_of_le ?_) hlevel (fits_of_le ?_)
  all_goals
    generalize 2 ^ 1000 = bound at *
    omega

end Moderate

end Loop

/-! ## Well-scoped trees -/

/-- Each variable of an echo is that of a loop around it, each function is an operation, there are
no operators, and all loops are moderate. -/
structure Node.WellScoped (document : Node) : Prop where
  names : ∀ echo ∈ document.echoes [], ∀ name, .variable name ∈ echo.2 → name ∈ echo.1
  functions : ∀ echo ∈ document.echoes [], ∀ name, .function name ∈ echo.2 →
    ∃ op, Builtin.ofName? name = some op
  operators : ∀ echo ∈ document.echoes [], ∀ op, .operator op ∉ echo.2
  loops : ∀ l ∈ document.loops, l.Moderate

namespace Node.WellScoped

variable {document : Node}

/-- Nothing in a well-scoped tree is the reason for a fault. Faults have been traced to their
origins in the tree before, so one look at each kind of origin is all that is left. -/
theorem not_origin (h : document.WellScoped) (fault : EvalFault) :
    ¬ (Task.node document).Origin [] fault := by
  rintro (⟨echo, hecho, hfault⟩ | ⟨l, hl, hfails⟩)
  · have hoperators := h.operators echo hecho
    cases hfault with
    | noVariable hmem hscope => exact hscope (h.names echo hecho _ hmem)
    | unknownFunction hmem hname =>
      obtain ⟨op, hop⟩ := h.functions echo hecho _ hmem
      exact nomatch hop.symm.trans hname
    | underflow _ hmem _ => exact hoperators _ hmem
    | notNumber _ hmem => exact hoperators _ hmem
    | tooLarge hmem _ _ => exact hoperators _ hmem
    | divisionByZero hmem => exact hoperators _ hmem
  · cases hfails with
    | refused hr => exact (h.loops l hl).not_refused hr
    | tooLarge _ hturns =>
      obtain ⟨count, hcount⟩ := (h.loops l hl).exists_hasTurns
      exact hturns count hcount

theorem inRange (h : document.WellScoped) : document.InRange where
  echoes echo hecho op hmem := absurd hmem (h.operators echo hecho op)
  loops l hl := .inr (h.loops l hl).exists_hasTurns

end Node.WellScoped

/-- A well-scoped template renders as text, to the end: it has enough turns, and nothing fails,
whatever the operations find on the stacks. -/
theorem render_of_wellScoped {template : String} {document : Node}
    (hparse : parse template = .ok document) (h : document.WellScoped) (sink : TextSink) :
    ∃ limit, ∀ more ≥ limit, ∃ r, render more template sink = .ok (.returned, r) := by
  obtain ⟨result, o, limit, hends⟩ := h.inRange.exists_renders hparse sink
  refine ⟨limit, fun more hmore => ?_⟩
  obtain ⟨r, hrun, -⟩ := hends more hmore
  cases result with
  | ok _ => exact ⟨r, hrun⟩
  | error fault => exact absurd (origin_of_render TextSink.accepts hparse hrun) (h.not_origin fault)

theorem render_of_wellScoped_swap :
    ∃ limit, ∀ more ≥ limit, ∃ r,
      render more "\x7b$FOR i -1 1$\x7d\x7b$= i @swap \"n\" i @tparamSet$\x7d\x7b$END$\x7d"
        (TextSink.start (.start .empty .empty) "UTF-8") = .ok (.returned, r) := by
  have hparse :
      parse "\x7b$FOR i -1 1$\x7d\x7b$= i @swap \"n\" i @tparamSet$\x7d\x7b$END$\x7d" =
        .ok (.document [.forLoop ⟨"i", -1, 1, none⟩
          [.echo [.variable "i", .function "swap", .string "n", .variable "i",
            .function "tparamSet"]]]) :=
    parse_tags
      ["\x7b$FOR i -1 1$\x7d".toList, "\x7b$= i @swap \"n\" i @tparamSet$\x7d".toList,
        "\x7b$END$\x7d".toList]
      rfl
      (.cons ⟨⟨"$FOR i -1 1$".toList, rfl, by decide⟩, rfl⟩
        (.cons ⟨⟨"$= i @swap \"n\" i @tparamSet$".toList, rfl, by decide⟩, rfl⟩
          (.cons ⟨⟨"$END$".toList, rfl, by decide⟩, rfl⟩ .nil)))
      (.loop (.echo .nil) .nil)
  refine render_of_wellScoped hparse ⟨?_, ?_, ?_, ?_⟩ _
  · intro echo hecho name hname
    obtain rfl := List.mem_singleton.1 hecho
    obtain rfl : name = "i" := by simpa using hname
    exact List.mem_singleton_self "i"
  · intro echo hecho name hname
    obtain rfl := List.mem_singleton.1 hecho
    obtain rfl | rfl : name = "swap" ∨ name = "tparamSet" := by simpa using hname
    · exact ⟨.swap, by decide⟩
    · exact ⟨.setParameter .temporary, by decide⟩
  · intro echo hecho op hop
    obtain rfl := List.mem_singleton.1 hecho
    simp at hop
  · intro l hl
    obtain rfl := List.mem_singleton.1 hl
    exact ⟨by decide +kernel, by decide +kernel, fun _ hstep => nomatch hstep⟩

end Stencil
