import Stencil.Proofs.Number.ReadBack
import Stencil.Proofs.Render.ScopesApart
import Stencil.Proofs.Tag.Elements

/-!
# Values read back

A whole number and a finite double are written as texts that are read as themselves, by whoever
reads them: where the kind of number counts, where only a double is of use, and in the source of a
template. A template can therefore keep a number under a name and find it there
(`Number.reads_back`).
-/

set_option autoImplicit false

namespace Stencil

/-! ## Numbers without blanks around them -/

theorem IsNumeral.trimmed {cs : List Char} (h : IsNumeral cs) : Trimmed cs := by
  by_cases hne : cs = []
  · subst hne
    exact ⟨rfl, rfl⟩
  · exact (h.isWord hne).trimmed

theorem readDouble?_of_decimalForm {s : String} {x : Double} (h : DecimalForm s.toList x) :
    readDouble? s = some x := by
  rw [readDouble?, h.isNumeral.trimmed.trim_eq]
  exact Literal.bareDouble?_eq_some_iff.2 h

namespace Number

theorem ofText_of_decimalForm {s : String} {x : Double} (h : DecimalForm s.toList x)
    (hpoint : '.' ∈ s.toList) : ofText s = .ok (.double x) := by
  have hany : s.toList.any (fun c => c == '.' || c == 'E') = true :=
    List.any_eq_true.2 ⟨'.', hpoint, rfl⟩
  rw [ofText, if_pos hany, readDouble?_of_decimalForm h]
  rfl

theorem ofText_of_integerForm {s : String} {n : Int} (h : IntegerForm s.toList n) :
    ofText s = .ok (.integer n) := by
  have hmark : ∀ c ∈ s.toList, ¬ (c == '.' || c == 'E') = true := by
    intro c hmem hc
    rcases Bool.or_eq_true_iff.1 hc with hc | hc
    · rw [beq_iff_eq.1 hc] at hmem
      exact h.not_mem (by decide) (by decide) hmem
    · rw [beq_iff_eq.1 hc] at hmem
      exact h.not_mem (by decide) (by decide) hmem
  have hany : ¬ s.toList.any (fun c => c == '.' || c == 'E') = true := by
    rw [List.any_eq_true]
    rintro ⟨c, hmem, hc⟩
    exact hmark c hmem hc
  rw [ofText, if_neg hany, h.isNumeral.trimmed.trim_eq, Literal.integer?_eq_some_iff.2 h]
  rfl

def IsFinite : Number → Prop
  | .integer _ => True
  | .double x => ∃ negative rank, x = .finite negative rank

/-- A text that a number is read from, and a double also where only doubles are read and in the
source of a template. -/
structure ReadFrom (a : Number) (text : String) : Prop where
  number : ofText text = .ok a
  double : ∀ x, a = .double x → (Value.text text).toDouble = .ok x
  element : ∀ x, a = .double x → Element.ofWord text.toList = .ok (.double x)

theorem exists_readFrom {a : Number} (h : a.IsFinite) :
    ∃ text, a.toValue.format = .ok text ∧ a.ReadFrom text := by
  cases a with
  | integer n =>
    have hform : IntegerForm (integerText n).toList n := by
      rw [integerText, String.toList_ofList]
      exact integerForm_integerChars n
    exact ⟨integerText n, rfl, ofText_of_integerForm hform, by simp, by simp⟩
  | double x =>
    obtain ⟨negative, rank, rfl⟩ := h
    have hchars : (DoubleLayout.template.write (.finite negative rank)).toList =
        DoubleLayout.template.chars (.finite negative rank) := String.toList_ofList
    have hform := decimalForm_chars negative rank
    have hpoint := mem_point_chars negative rank
    have hinteger := not_integerForm_chars negative rank
    rw [← hchars] at hform hpoint hinteger
    refine ⟨_, rfl, ofText_of_decimalForm hform hpoint, ?_, ?_⟩
    · rintro x ⟨⟩
      rw [Value.toDouble, readDouble?_of_decimalForm hform]
      rfl
    · rintro x ⟨⟩
      exact Element.ofWord_of_isNumberHead hform.head
        (Element.constant?_of_decimalForm hform hform.isNumeral.trimmed hinteger)

end Number

/-! ## Numbers that are kept under a name -/

section

variable {σ : Type} [Sink σ] {v : Value} {text : String}

theorem Scopes.get?_put (s : Scopes) (scope : OwnScope) (name value : String) :
    (s.put scope name value).get? (.own scope) name = some value := by
  cases scope <;> exact Dictionary.get?_put_self _ name value

theorem Builtin.call_setParameter (h : v.format = .ok text) (scope : OwnScope) (name : String)
    (rest : List Value) (s : σ) :
    (setParameter scope).call (v :: .text name :: rest) s =
      .ok (rest, Sink.withScopes s ((Sink.scopes s).put scope name text)) := by
  simp only [call, popEntry, pop, h, bind, Except.bind, read_ok]
  rfl

theorem Builtin.call_getParameter (h : v.isSupported = true) {scope : Scope} {name : String} {s : σ}
    (hfound : (Sink.scopes s).get? scope name = some text) (rest : List Value) :
    (getParameter scope).call (v :: .text name :: rest) s = .ok (.text text :: rest, s) := by
  obtain ⟨value, hvalue⟩ : ∃ value, v.format = .ok value := by
    cases v with
    | foreign kind => exact absurd h (by simp [Value.isSupported])
    | _ => exact ⟨_, rfl⟩
  simp only [call, popEntry, pop, hvalue, bind, Except.bind, read_ok]
  show Except.ok (Value.text (((Sink.scopes s).get? scope name).getD value) :: rest, s) = _
  rw [hfound]
  rfl

end

/-- A finite number is written as a text that it is read from. If it is stored under a name, then
whatever sink later holds under that name what was stored there, a template gets a value that counts
as the number. -/
theorem Number.reads_back {σ : Type} [Sink σ] [LawfulSink σ] {a : Number} (h : a.IsFinite)
    (scope : OwnScope) (name : String) (stack : List Value) (s : σ) :
    ∃ text s', a.toValue.format = .ok text ∧ a.ReadFrom text ∧
      (Builtin.setParameter scope).call (a.toValue :: .text name :: stack) s = .ok (stack, s') ∧
      ∀ (later : σ) (fallback : Value) (rest : List Value), fallback.isSupported = true →
        (Sink.scopes later).get? (.own scope) name = (Sink.scopes s').get? (.own scope) name →
        ∃ v, (Builtin.getParameter (.own scope)).call (fallback :: .text name :: rest) later =
          .ok (v :: rest, later) ∧ v.toNumber = .ok a := by
  obtain ⟨text, hformat, hread⟩ := exists_readFrom h
  refine ⟨text, _, hformat, hread, Builtin.call_setParameter hformat scope name stack s, ?_⟩
  intro later fallback rest hfallback hlater
  rw [LawfulSink.scopes_withScopes, Scopes.get?_put] at hlater
  exact ⟨.text text, Builtin.call_getParameter hfallback hlater rest, hread.number⟩

theorem Number.reads_back_zero :
    let zero : Number := .double (.finite true ⟨0, by decide⟩)
    let s := TextSink.start (.start .empty .empty) "UTF-8"
    zero.IsFinite ∧ ∃ s' v,
      (Builtin.setParameter .persistent).call [zero.toValue, .text "x"] s = .ok ([], s') ∧
        (Builtin.getParameter (.own .persistent)).call [.absent, .text "x"] s' = .ok ([v], s') ∧
          v.toNumber = .ok zero := by
  intro zero s
  have hfinite : zero.IsFinite := ⟨true, _, rfl⟩
  obtain ⟨text, s', -, -, hset, hget⟩ := reads_back hfinite .persistent "x" [] s
  obtain ⟨v, hcall, hnumber⟩ := hget s' .absent [] rfl rfl
  exact ⟨hfinite, s', v, hset, hcall, hnumber⟩

end Stencil
