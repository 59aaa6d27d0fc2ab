import Stencil.Proofs.Node.Joined
import Stencil.Proofs.Render.Outcome

/-!
# Renders one after the other

A run never reads its log, so that what was noted before it does not matter to it
(`Reference.after_iff`), and nodes in order run as their two parts do (`Reference.append_iff`). Two
templates put together therefore render as the one after the other into the same sink
(`renders_joined`): no variable is left behind by the first, and a text that is cut in two is
written as if it were not.
-/

set_option autoImplicit false

namespace Stencil

/-! ## What was noted before -/

section

variable {σ : Type}

def Echo.after (log : List LogRecord) (e : Echo σ) : Echo σ := { e with log := e.log ++ log }

def Seen.after (errors : List LogRecord) (o : Seen σ) : Seen σ :=
  { o with errors := o.errors ++ errors }

variable [Sink σ] {env : Env}

theorem Seen.text_after (errors : List LogRecord) (o : Seen σ) (content : String) :
    (o.after errors).text content = Prod.map id (after errors) (o.text content) := rfl

theorem Echo.call_after (log : List LogRecord) (e : Echo σ) (op : Builtin) :
    (e.after log).call op = (e.call op).after log := by
  simp only [call, after]
  cases op.call e.stack e.sink <;> rfl

theorem Echo.evaluate_after (vars : NamedStacks) (log : List LogRecord) (e : Echo σ)
    (element : Element) :
    (e.after log).evaluate vars element = Prod.map id (after log) (e.evaluate vars element) := by
  cases element with
  | «variable» name =>
    simp only [evaluate]
    cases vars.tryPeek name <;> rfl
  | function name =>
    simp only [evaluate]
    cases Builtin.ofName? name with
    | none => rfl
    | some op =>
      simp only [call_after]
      rfl
  | _ => rfl

namespace Env

theorem evaluate_after (log : List LogRecord) (e : Echo σ) (element : Element) :
    env.evaluate (e.after log) element = Prod.map id (Echo.after log) (env.evaluate e element) := by
  cases element with
  | «variable» name =>
    simp only [evaluate]
    cases env.value? name <;> rfl
  | integer n => exact Echo.evaluate_after .empty log e (.integer n)
  | double x => exact Echo.evaluate_after .empty log e (.double x)
  | string s => exact Echo.evaluate_after .empty log e (.string s)
  | function name => exact Echo.evaluate_after .empty log e (.function name)
  | operator op => exact Echo.evaluate_after .empty log e (.operator op)

theorem evaluateAll_after (log : List LogRecord) (elements : List Element) :
    ∀ e : Echo σ, env.evaluateAll (e.after log) elements =
      Prod.map id (Echo.after log) (env.evaluateAll e elements) := by
  induction elements with
  | nil => exact fun _ => rfl
  | cons element rest ih =>
    intro e
    rw [evaluateAll, evaluateAll, evaluate_after]
    rcases env.evaluate e element with ⟨_ | _, e'⟩
    · rfl
    · exact ih e'

theorem echo_after (errors : List LogRecord) (o : Seen σ) (elements : List Element) :
    env.echo (o.after errors) elements =
      Prod.map id (Seen.after errors) (env.echo o elements) := by
  have hall : env.evaluateAll ⟨[], (o.after errors).sink, (o.after errors).errors⟩ elements =
      Prod.map id (Echo.after errors) (env.evaluateAll ⟨[], o.sink, o.errors⟩ elements) :=
    evaluateAll_after errors elements ⟨[], o.sink, o.errors⟩
  rw [echo, echo, hall]
  rcases env.evaluateAll ⟨[], o.sink, o.errors⟩ elements with ⟨_ | _, e⟩ <;> rfl

end Env

namespace Reference

variable {task : Task} {o p p' : Seen σ} {result : Except EvalFault Unit}
  {errors : List LogRecord}

theorem after {o' : Seen σ} (h : Reference env task o result o') (errors : List LogRecord) :
    Reference env task (o.after errors) result (o'.after errors) := by
  induction h with
  | document _ ih => exact .document ih
  | text content o => exact .text content (o.after errors)
  | echo env elements o =>
    have h := Reference.echo env elements (o.after errors)
    rw [Env.echo_after] at h
    exact h
  | refused hr => exact .refused hr
  | loop hr _ ih => exact .loop hr ih
  | nil => exact .nil
  | cons _ _ ihn ihns => exact .cons ihn ihns
  | failed _ ih => exact .failed ih
  | incomparable hc => exact .incomparable hc
  | finished hc hs => exact .finished hc hs
  | turn hc hs _ _ ihb iht => exact .turn hc hs ihb iht
  | broken hc hs _ ih => exact .broken hc hs ih

/-- A run adds to what was noted before, and would do the same if nothing had been noted. The log is
written and never read, which is what this comes to. -/
theorem exists_of_after (h : Reference env task p result p') :
    ∀ {o : Seen σ}, p = o.after errors →
      ∃ o', p' = o'.after errors ∧ Reference env task o result o' := by
  induction h with
  | document _ ih =>
    intro o hp
    obtain ⟨o', hp', h⟩ := ih hp
    exact ⟨o', hp', .document h⟩
  | text content p =>
    intro o hp
    rw [hp, Seen.text_after]
    exact ⟨_, rfl, .text content o⟩
  | echo env elements p =>
    intro o hp
    rw [hp, Env.echo_after]
    exact ⟨_, rfl, .echo env elements o⟩
  | refused hr => exact fun hp => ⟨_, hp, .refused hr⟩
  | loop hr _ ih =>
    intro o hp
    obtain ⟨o', hp', h⟩ := ih hp
    exact ⟨o', hp', .loop hr h⟩
  | nil => exact fun hp => ⟨_, hp, .nil⟩
  | cons _ _ ihn ihns =>
    intro o hp
    obtain ⟨middle, hmiddle, hn⟩ := ihn hp
    obtain ⟨o', hp', hns⟩ := ihns hmiddle
    exact ⟨o', hp', .cons hn hns⟩
  | failed _ ih =>
    intro o hp
    obtain ⟨o', hp', h⟩ := ih hp
    exact ⟨o', hp', .failed h⟩
  | incomparable hc => exact fun hp => ⟨_, hp, .incomparable hc⟩
  | finished hc hs => exact fun hp => ⟨_, hp, .finished hc hs⟩
  | turn hc hs _ _ ihb iht =>
    intro o hp
    obtain ⟨middle, hmiddle, hb⟩ := ihb hp
    obtain ⟨o', hp', ht⟩ := iht hmiddle
    exact ⟨o', hp', .turn hc hs hb ht⟩
  | broken hc hs _ ih =>
    intro o hp
    obtain ⟨o', hp', h⟩ := ih hp
    exact ⟨o', hp', .broken hc hs h⟩

theorem after_iff : Reference env task (o.after errors) result p' ↔
    ∃ o', p' = o'.after errors ∧ Reference env task o result o' := by
  refine ⟨fun h => h.exists_of_after rfl, ?_⟩
  rintro ⟨o', rfl, h⟩
  exact h.after errors

/-! ## Nodes in order -/

variable {o' : Seen σ} {n : Node} {ns ms : List Node}

theorem document_iff : Reference env (.node (.document ns)) o result o' ↔
    Reference env (.nodes ns) o result o' := by
  refine ⟨fun h => ?_, .document⟩
  cases h with
  | document h => exact h

theorem cons_iff : Reference env (.nodes (n :: ns)) o result o' ↔
    (∃ fault, result = .error fault ∧ Reference env (.node n) o (.error fault) o') ∨
      ∃ middle, Reference env (.node n) o (.ok ()) middle ∧
        Reference env (.nodes ns) middle result o' := by
  constructor
  · intro h
    cases h with
    | cons hn hns => exact .inr ⟨_, hn, hns⟩
    | failed hn => exact .inl ⟨_, rfl, hn⟩
  · rintro (⟨fault, rfl, hn⟩ | ⟨middle, hn, hns⟩)
    · exact .failed hn
    · exact .cons hn hns

theorem append_iff : Reference env (.nodes (ns ++ ms)) o result o' ↔
    (∃ fault, result = .error fault ∧ Reference env (.nodes ns) o (.error fault) o') ∨
      ∃ middle, Reference env (.nodes ns) o (.ok ()) middle ∧
        Reference env (.nodes ms) middle result o' := by
  induction ns generalizing o with
  | nil =>
    constructor
    · exact fun h => .inr ⟨o, .nil, h⟩
    · rintro (⟨fault, -, h⟩ | ⟨middle, h, hms⟩)
      · cases h
      · cases h
        exact hms
  | cons n ns ih =>
    rw [List.cons_append, cons_iff]
    constructor
    · rintro (⟨fault, rfl, hn⟩ | ⟨middle, hn, hrest⟩)
      · exact .inl ⟨fault, rfl, .failed hn⟩
      · rcases ih.1 hrest with ⟨fault, rfl, hns⟩ | ⟨middle', hns, hms⟩
        · exact .inl ⟨fault, rfl, .cons hn hns⟩
        · exact .inr ⟨middle', .cons hn hns, hms⟩
    · rintro (⟨fault, rfl, h⟩ | ⟨middle', h, hms⟩)
      · cases h with
        | cons hn hns => exact .inr ⟨_, hn, ih.2 (.inl ⟨fault, rfl, hns⟩)⟩
        | failed hn => exact .inl ⟨fault, rfl, hn⟩
      · cases h with
        | cons hn hns => exact .inr ⟨_, hn, ih.2 (.inr ⟨middle', hns, hms⟩)⟩

end Reference

end

/-! ## Texts in two parts -/

theorem TextSink.write_write (s : TextSink) (a b : String) :
    (s.write a).write b = s.write (a ++ b) := by
  simp only [write, String.append_assoc]

namespace Reference

variable {env : Env} {o o' : Seen TextSink} {result : Except EvalFault Unit} {ns : List Node}

theorem text_cons_iff {content : String} :
    Reference env (.nodes (.text content :: ns)) o result o' ↔
      Reference env (.nodes ns) ⟨o.sink.write content, o.errors⟩ result o' := by
  rw [cons_iff]
  constructor
  · rintro (⟨fault, rfl, h⟩ | ⟨middle, h, hns⟩)
    · exact nomatch h
    · cases h
      exact hns
  · exact fun h => .inr ⟨_, .text content o, h⟩

/-- A text may as well be written in two parts. This is where the sink matters: one that counts
calls would tell the two apart, and a sink that collects text does not. -/
theorem join_iff {ms : List Node} : Reference env (.nodes (joinBy Node.merge ns ms)) o result o' ↔
    Reference env (.nodes (ns ++ ms)) o result o' := by
  rcases joinBy_cases Node.merge ns ms with ⟨front, x, y, back, z, rfl, rfl, hz, hjoin⟩ | hjoin
  · obtain ⟨a, b, rfl, rfl, rfl⟩ := Node.exists_of_merge hz
    have hseam (middle : Seen TextSink) :
        Reference env (.nodes (.text (a ++ b) :: back)) middle result o' ↔
          Reference env (.nodes (.text a :: .text b :: back)) middle result o' := by
      rw [text_cons_iff, text_cons_iff, text_cons_iff, TextSink.write_write]
    rw [hjoin, List.append_assoc, append_iff, append_iff]
    exact or_congr Iff.rfl (exists_congr fun middle => and_congr Iff.rfl (hseam middle))
  · rw [hjoin]

end Reference

/-! ## Templates put together -/

/-- Two templates put together, without the blanks at the ends of each, are a template. Its nodes
are those of the two, except that two texts that meet are one. It renders as the first template
does if that one fails, and otherwise as the second one does into what the first one has left; the
errors of the second are noted over those of the first. -/
theorem renders_joined {s₁ s₂ : String} {d₁ d₂ : Node} (h₁ : parse s₁ = .ok d₁)
    (h₂ : parse s₂ = .ok d₂) (sink : TextSink) :
    parse (trimText s₁ ++ trimText s₂) =
        .ok (.document (joinBy Node.merge d₁.children d₂.children)) ∧
      ∀ result o, Renders (trimText s₁ ++ trimText s₂) sink result o ↔
        (∃ fault, result = .error fault ∧ Renders s₁ sink (.error fault) o) ∨
          ∃ middle last, Renders s₁ sink (.ok ()) middle ∧
            Renders s₂ middle.sink result last ∧ o = last.after middle.errors := by
  have hparse := parse_joined h₁ h₂
  refine ⟨hparse, fun result o => ?_⟩
  obtain ⟨-, -, ns, -, -, -, rfl⟩ := parse_eq_ok_iff_cuts.1 h₁
  obtain ⟨-, -, ms, -, -, -, rfl⟩ := parse_eq_ok_iff_cuts.1 h₂
  have hfirst (result : Except EvalFault Unit) (o : Seen TextSink) :
      Renders s₁ sink result o ↔ Reference [] (.nodes ns) ⟨sink, []⟩ result o :=
    (renders_iff h₁).trans Reference.document_iff
  have hsecond (middle : Seen TextSink) (last : Seen TextSink) :
      Renders s₂ middle.sink result last ↔
        Reference [] (.nodes ms) ⟨middle.sink, []⟩ result last :=
    (renders_iff h₂).trans Reference.document_iff
  rw [renders_iff hparse, Reference.document_iff, Reference.join_iff, Reference.append_iff]
  simp only [hfirst, hsecond]
  refine or_congr Iff.rfl (exists_congr fun middle => ?_)
  rw [exists_and_left]
  refine and_congr Iff.rfl ?_
  -- The second part starts with the errors of the first, which it does not read.
  have hafter : Reference [] (.nodes ms) (Seen.after middle.errors ⟨middle.sink, []⟩) result o ↔
      ∃ last, o = last.after middle.errors ∧
        Reference [] (.nodes ms) ⟨middle.sink, []⟩ result last := Reference.after_iff
  exact hafter.trans (exists_congr fun last => and_comm)

theorem renders_joined_texts :
    trimText "a " ++ trimText " b\x7b$= i $\x7d" = "ab\x7b$= i $\x7d" ∧
      parse "ab\x7b$= i $\x7d" = .ok (.document [.text "ab", .echo [.variable "i"]]) ∧
      ∃ o : Seen TextSink,
        Renders "ab\x7b$= i $\x7d" (TextSink.start (.start .empty .empty) "UTF-8")
          (.error (.noVariable "i")) o ∧ o.sink.body = "ab" := by
  have htext : trimText "a " ++ trimText " b\x7b$= i $\x7d" = "ab\x7b$= i $\x7d" := by
    decide +kernel
  have hfirst : parse "a " = .ok (.document [.text "a"]) := by
    have hcuts : Cuts (['a'] ++ []) [.text ['a']] :=
      .text (.plain rfl .nil) (by simp) rfl rfl .nil
    exact parse_eq_ok_iff_cuts.2 ⟨_, _, _, hcuts, .cons (.text ['a']) .nil, .text .nil, rfl⟩
  have hsecond : parse " b\x7b$= i $\x7d" =
      .ok (.document [.text "b", .echo [.variable "i"]]) := by
    have htag : Enclosed "\x7b$= i $\x7d".toList ∧
        Tag.ofChars "\x7b$= i $\x7d".toList = .ok (.echo [.variable "i"]) :=
      ⟨⟨"$= i $".toList, rfl, by decide⟩, rfl⟩
    have hcuts : Cuts (['b'] ++ ("\x7b$= i $\x7d".toList ++ []))
        [.text ['b'], .tag "\x7b$= i $\x7d".toList] :=
      .text (.plain rfl .nil) (by simp) rfl rfl (.tag htag.1 .nil)
    exact parse_eq_ok_iff_cuts.2 ⟨_, _, _, hcuts,
      .cons (.text ['b']) (.cons (.tag (Tag.ofChars_eq_ok_iff.1 htag.2)) .nil), .text (.echo .nil),
      rfl⟩
  let sink := TextSink.start (.start .empty .empty) "UTF-8"
  have hmiddle : Renders "a " sink (.ok ()) ⟨sink.write "a", []⟩ :=
    Reference.renders hfirst (.document (.cons (.text "a" _) .nil))
  have hlast : Renders " b\x7b$= i $\x7d" (sink.write "a") (.error (.noVariable "i"))
      ⟨(sink.write "a").write "b", []⟩ :=
    Reference.renders hsecond
      (.document (.cons (.text "b" _) (.failed (.echo [] [.variable "i"] _))))
  obtain ⟨hparse, hrenders⟩ := renders_joined hfirst hsecond sink
  rw [htext] at hparse hrenders
  have hboth := (hrenders _ _).2 (.inr ⟨_, _, hmiddle, hlast, rfl⟩)
  exact ⟨htext, hparse, _, hboth, by decide⟩

end Stencil
