import Stencil.Proofs.Render.Families
import Stencil.Sink.Response

/-!
# Scopes apart

What a template does to one scope shows in no other. No run changes the parameters of the request.
And unless a template reads the persistent parameters, nothing of a run depends on them, not even
what it does to them: it makes the same edits to whatever is there (`render_scopes_apart`).

All that is needed of a sink is that it holds its scopes beside the rest (`LawfulSink`).
-/

set_option autoImplicit false

namespace Stencil

open Dictionary (Edit)

/-! ## Scopes of which one is replaced -/

namespace Scopes

def supply (s : Scopes) (scope : OwnScope) (d : Dictionary String) : Scopes :=
  s.modify scope fun _ => d

theorem parameters_supply_of_ne (s : Scopes) {scope : OwnScope} {other : Scope}
    (h : other ≠ .own scope) (d : Dictionary String) :
    (s.supply scope d).parameters other = s.parameters other := by
  cases scope <;> rcases other with _ | _ | _ <;> first | rfl | exact absurd rfl h

theorem modify_supply_self (s : Scopes) (scope : OwnScope)
    (f : Dictionary String → Dictionary String) (d : Dictionary String) :
    (s.supply scope d).modify scope f = s.supply scope (f d) := by
  cases scope <;> rfl

theorem modify_supply_of_ne (s : Scopes) {scope other : OwnScope} (h : other ≠ scope)
    (f : Dictionary String → Dictionary String) (d : Dictionary String) :
    (s.supply scope d).modify other f = (s.modify other f).supply scope d := by
  cases scope <;> cases other <;> first | rfl | exact absurd rfl h

end Scopes

/-! ## Sinks that hold their scopes beside the rest -/

/-- A sink whose scopes can be read and replaced, and have no say in what is written and in what
media type. Both kinds of sinks are, so what follows from these laws holds of a render into either.
-/
class LawfulSink (σ : Type) [Sink σ] : Prop where
  scopes_withScopes : ∀ (s : σ) scopes, Sink.scopes (Sink.withScopes s scopes) = scopes
  withScopes_scopes : ∀ s : σ, Sink.withScopes s (Sink.scopes s) = s
  withScopes_withScopes : ∀ (s : σ) first second,
    Sink.withScopes (Sink.withScopes s first) second = Sink.withScopes s second
  write_withScopes : ∀ (s : σ) scopes text, Sink.write (Sink.withScopes s scopes) text =
    Prod.map id (Sink.withScopes · scopes) (Sink.write s text)
  setMimeType_withScopes : ∀ (s : σ) scopes mimeType,
    Sink.setMimeType (Sink.withScopes s scopes) mimeType =
      (Sink.setMimeType s mimeType).map (Sink.withScopes · scopes)

instance : LawfulSink TextSink where
  scopes_withScopes _ _ := rfl
  withScopes_scopes _ := rfl
  withScopes_withScopes _ _ _ := rfl
  write_withScopes _ _ _ := rfl
  setMimeType_withScopes _ _ _ := rfl

namespace Response

variable (r : Response) (scopes : Scopes)

theorem open?_withScopes :
    open? { r with scopes } = r.open?.map ({ · with scopes }) := by
  unfold open?
  split <;> rfl

theorem sendHeader_withScopes :
    sendHeader { r with scopes } = r.sendHeader.map ({ · with scopes }) := by
  have hheader : header { r with scopes } = r.header := rfl
  unfold sendHeader
  rw [hheader]
  split
  · rfl
  · cases Charset.encode? .latin1 r.header <;> rfl

end Response

instance : LawfulSink Response where
  scopes_withScopes _ _ := rfl
  withScopes_scopes _ := rfl
  withScopes_withScopes _ _ _ := rfl
  write_withScopes r scopes text := by
    show Response.write { r with scopes } text = Prod.map id ({ · with scopes }) (r.write text)
    unfold Response.write
    rw [Response.sendHeader_withScopes]
    cases r.sendHeader with
    | error fault => rfl
    | ok r' =>
      simp only [Except.map]
      cases r'.encoding.charset.encode? text <;> rfl
  setMimeType_withScopes r scopes mimeType := by
    show Response.setMimeType { r with scopes } mimeType = (r.setMimeType mimeType).map _
    unfold Response.setMimeType
    rw [Response.open?_withScopes]
    cases r.open? <;> rfl

namespace Sink

variable {σ : Type} [Sink σ]

def supply (s : σ) (scope : OwnScope) (d : Dictionary String) : σ := modify s scope fun _ => d

section

variable [LawfulSink σ] (s : σ) (scope : OwnScope) (d : Dictionary String)

theorem scopes_write (text : String) : scopes (write s text).2 = scopes s := by
  have hwrite := LawfulSink.write_withScopes s (scopes s) text
  rw [LawfulSink.withScopes_scopes] at hwrite
  rw [hwrite]
  exact LawfulSink.scopes_withScopes _ _

theorem scopes_setMimeType {s s' : σ} {mimeType : String} (h : setMimeType s mimeType = .ok s') :
    scopes s' = scopes s := by
  have hset := LawfulSink.setMimeType_withScopes s (scopes s) mimeType
  rw [LawfulSink.withScopes_scopes, h] at hset
  rw [Except.ok.inj hset]
  exact LawfulSink.scopes_withScopes _ _

@[simp] theorem scopes_modify (f : Dictionary String → Dictionary String) :
    scopes (modify s scope f) = (scopes s).modify scope f :=
  LawfulSink.scopes_withScopes _ _

@[simp] theorem scopes_supply : scopes (supply s scope d) = (scopes s).supply scope d :=
  LawfulSink.scopes_withScopes _ _

theorem modify_supply_self (f : Dictionary String → Dictionary String) :
    modify (supply s scope d) scope f = supply s scope (f d) := by
  rw [modify, scopes_supply, Scopes.modify_supply_self, supply, modify,
    LawfulSink.withScopes_withScopes]
  rfl

theorem modify_supply_of_ne {scope other : OwnScope} (h : other ≠ scope)
    (f : Dictionary String → Dictionary String) :
    modify (supply s scope d) other f = supply (modify s other f) scope d := by
  have hscopes := Scopes.modify_supply_of_ne (scopes s) h f d
  simp only [supply, modify, LawfulSink.scopes_withScopes, LawfulSink.withScopes_withScopes]
  exact congrArg (withScopes s) hscopes

theorem write_supply (text : String) :
    write (supply s scope d) text = Prod.map id (supply · scope d) (write s text) := by
  rw [supply, modify, LawfulSink.write_withScopes]
  refine Prod.ext rfl ?_
  show _ = supply (write s text).2 scope d
  rw [supply, modify, scopes_write]
  rfl

theorem setMimeType_supply (mimeType : String) :
    setMimeType (supply s scope d) mimeType =
      (setMimeType s mimeType).map (supply · scope d) := by
  rw [supply, modify, LawfulSink.setMimeType_withScopes]
  cases hset : setMimeType s mimeType with
  | error fault => rfl
  | ok s' =>
    show _ = Except.ok (supply s' scope d)
    rw [supply, modify, scopes_setMimeType hset]
    rfl

end

end Sink

variable {σ : Type} [Sink σ]

/-! ## The request -/

variable [LawfulSink σ]

theorem Builtin.Plan.request_eq {p : Plan} {s s' : σ} {stack : List Value}
    (h : p.perform s = .ok (stack, s')) : (Sink.scopes s').request = (Sink.scopes s).request := by
  cases p with
  | leave result =>
    cases result with
    | error failure => exact absurd h (by simp [perform, Except.map])
    | ok left => rw [(Prod.mk.inj (Except.ok.inj h)).2]
  | setMimeType text rest =>
    simp only [perform] at h
    cases hset : Sink.setMimeType s text with
    | error fault =>
      rw [hset] at h
      exact absurd h (by simp)
    | ok s'' =>
      rw [hset] at h
      rw [← (Prod.mk.inj (Except.ok.inj h)).2, Sink.scopes_setMimeType hset]
  | read scope name value rest => rw [(Prod.mk.inj (Except.ok.inj h)).2]
  | edit scope e rest =>
    rw [← (Prod.mk.inj (Except.ok.inj h)).2, Sink.scopes_modify, Scopes.request_modify]

/-- The families of one sink with these parameters of the request. -/
def OfRequest (request : Dictionary String) (F : Unit → σ) : Prop :=
  (Sink.scopes (F ())).request = request

theorem sinkFamilies_ofRequest (request : Dictionary String) :
    SinkFamilies (OfRequest (σ := σ) request) fun _ => True where
  write F hF text := by
    refine ⟨(Sink.write (F ()) text).1, fun _ => (Sink.write (F ()) text).2, ?_, fun _ => rfl⟩
    show (Sink.scopes (Sink.write (F ()) text).2).request = request
    rw [Sink.scopes_write]
    exact hF
  call F hF op _ stack := by
    cases hcall : op.call stack (F ()) with
    | error failure => exact .inl ⟨failure, fun _ => hcall⟩
    | ok left =>
      refine .inr ⟨left.1, fun _ => left.2, ?_, fun _ => hcall⟩
      rw [Builtin.call_eq_perform] at hcall
      exact (Builtin.Plan.request_eq hcall).trans hF

/-! ## A scope that is not read -/

/-- The families that hold, over all parameters in a scope, the outcome of the same edits to them.
-/
def Edited (scope : OwnScope) (F : Dictionary String → σ) : Prop :=
  ∃ s edits, ∀ d, F d = Sink.supply s scope (d.editAll edits)

theorem Edited.perform {scope : OwnScope} {F : Dictionary String → σ} (hF : Edited scope F)
    {p : Builtin.Plan} (hp : ∀ name value rest, p ≠ .read (.own scope) name value rest) :
    (∃ failure, ∀ d, p.perform (F d) = .error failure) ∨
      ∃ stack F', Edited scope F' ∧ ∀ d, p.perform (F d) = .ok (stack, F' d) := by
  obtain ⟨s, edits, hF⟩ := hF
  simp only [hF]
  cases p with
  | leave result =>
    cases result with
    | error failure => exact .inl ⟨failure, fun _ => rfl⟩
    | ok stack => exact .inr ⟨stack, _, ⟨s, edits, fun _ => rfl⟩, fun _ => rfl⟩
  | setMimeType text rest =>
    simp only [Builtin.Plan.perform, Sink.setMimeType_supply]
    cases Sink.setMimeType s text with
    | error fault => exact .inl ⟨(.sink fault, rest), fun _ => rfl⟩
    | ok s' => exact .inr ⟨rest, _, ⟨s', edits, fun _ => rfl⟩, fun _ => rfl⟩
  | read other name value rest =>
    have hother : other ≠ .own scope := by
      rintro rfl
      exact hp name value rest rfl
    simp only [Builtin.Plan.perform, Sink.scopes_supply, Scopes.get?,
      Scopes.parameters_supply_of_ne _ hother]
    exact .inr ⟨_, _, ⟨s, edits, fun _ => rfl⟩, fun _ => rfl⟩
  | edit other e rest =>
    by_cases hother : other = scope
    · -- The edit is put down behind the others, as the parameters themselves are not known.
      subst hother
      refine .inr ⟨rest, _, ⟨s, edits ++ [e], fun _ => rfl⟩, fun d => ?_⟩
      rw [Builtin.Plan.perform, Sink.modify_supply_self, Dictionary.editAll_concat]
    · refine .inr ⟨rest, _, ⟨Sink.modify s other (·.edit e), edits, fun _ => rfl⟩, fun d => ?_⟩
      rw [Builtin.Plan.perform, Sink.modify_supply_of_ne _ _ hother]

theorem sinkFamilies_edited (scope : OwnScope) :
    SinkFamilies (Edited (σ := σ) scope) (· ≠ .getParameter (.own scope)) where
  write F hF text := by
    obtain ⟨s, edits, hF⟩ := hF
    refine ⟨(Sink.write s text).1, _, ⟨(Sink.write s text).2, edits, fun _ => rfl⟩, fun d => ?_⟩
    rw [hF, Sink.write_supply]
    rfl
  call F hF op hop stack := by
    simp only [Builtin.call_eq_perform]
    refine hF.perform fun name value rest hread => hop ?_
    exact Builtin.eq_of_plan_read hread

/-! ## Renders -/

def Node.Calls (document : Node) (name : String) : Prop :=
  ∃ echo ∈ document.echoes [], .function name ∈ echo.2

theorem request_render {limit : Nat} {template : String} {s : σ} {ending : Ending} {r : Run σ}
    (h : render limit template s = .ok (ending, r)) :
    (Sink.scopes r.sink).request = (Sink.scopes s).request := by
  cases hparse : parse template with
  | error e =>
    rw [render, hparse] at h
    exact absurd h (by simp [Except.map])
  | ok document =>
    have hcalls : ∀ echo ∈ document.echoes [], CallsOnly (fun _ => True) echo.2 :=
      fun _ _ _ _ _ _ => trivial
    obtain ⟨ending', F, vars, log, hF, hrender⟩ :=
      (sinkFamilies_ofRequest (Sink.scopes s).request).render limit hparse hcalls
        (show OfRequest _ fun _ : Unit => s from rfl)
    rw [hrender ()] at h
    rw [← (Prod.mk.inj (Except.ok.inj h)).2]
    exact hF

/-- If a template does not read one of its own scopes, its renders with whatever there is are one
render, and it makes the same edits to all. -/
theorem exists_edits_of_render (limit : Nat) {template : String} {document : Node}
    (hparse : parse template = .ok document) {scope : OwnScope}
    (hcalls : ¬ document.Calls (Builtin.getParameter (.own scope)).name) (s : σ) :
    ∃ (ending : Ending) (r : Run σ) (edits : List (Edit String)), ∀ d,
      render limit template (Sink.supply s scope d) =
      .ok (ending, { r with sink := Sink.supply r.sink scope (d.editAll edits) }) := by
  have hallowed : ∀ echo ∈ document.echoes [],
      CallsOnly (· ≠ .getParameter (.own scope)) echo.2 := by
    intro echo hecho name op hmem hop
    rintro rfl
    refine hcalls ⟨echo, hecho, ?_⟩
    rwa [Builtin.name_of_ofName? hop]
  obtain ⟨ending, F, vars, log, ⟨s', edits, hF⟩, hrender⟩ :=
    (sinkFamilies_edited scope).render limit hparse hallowed
      ⟨s, [], fun d => congrArg _ d.editAll_nil.symm⟩
  refine ⟨ending, ⟨s', vars, log⟩, edits, fun d => ?_⟩
  rw [hrender d, hF]

/-- A render never changes the parameters of the request. If the template does not read the
persistent parameters, then its renders, whatever these are, end alike and leave alike all but the
persistent parameters, and these it edits in one and the same way. -/
theorem render_scopes_apart (limit : Nat) (template : String) (s : σ) :
    (∀ ending r, render limit template s = .ok (ending, r) →
      (Sink.scopes r.sink).request = (Sink.scopes s).request) ∧
    ((∀ document, parse template = .ok document → ¬ document.Calls "pparamGet") →
      (∃ e, ∀ d, render limit template (Sink.supply s .persistent d) = .error e) ∨
      ∃ (ending : Ending) (r : Run σ) (edits : List (Edit String)), ∀ d,
        render limit template (Sink.supply s .persistent d) =
        .ok (ending, { r with sink := Sink.supply r.sink .persistent (d.editAll edits) })) := by
  refine ⟨fun ending r h => request_render h, fun hcalls => ?_⟩
  cases hparse : parse template with
  | error e =>
    refine .inl ⟨e, fun d => ?_⟩
    rw [render, hparse]
    rfl
  | ok document =>
    have hreads : ¬ document.Calls (Builtin.getParameter (.own .persistent)).name :=
      hcalls document hparse
    exact .inr (exists_edits_of_render limit hparse hreads s)

/-- A template that notes a visit and forgets another entry does so whatever it finds. It looks up a
parameter of the request as well, which is no persistent one. -/
theorem render_scopes_apart_visit :
    let template := "\x7b$= \"seen\" 1 @pparamSet \"old\" @pparamDel \"user\" \"?\" @paramGet $\x7d"
    (∃ document, parse template = .ok document ∧ ¬ document.Calls "pparamGet") ∧
      ∃ (r : Run TextSink) (edits : List (Edit String)),
        (∀ d, renderText 0 template .empty d = .ok (.returned,
          { r with sink := Sink.supply r.sink .persistent (d.editAll edits) })) ∧
        r.sink.body = "?" ∧ Dictionary.empty.editAll edits = ⟨[("seen", "1")]⟩ := by
  intro template
  let sink := TextSink.start (.start .empty .empty) "UTF-8"
  let document : Node :=
    .document [.echo [.string "seen", .integer 1, .function "pparamSet", .string "old",
      .function "pparamDel", .string "user", .string "?", .function "paramGet"]]
  have hparse : parse template = .ok document :=
    parse_echo ⟨"$= \"seen\" 1 @pparamSet \"old\" @pparamDel \"user\" \"?\" @paramGet $".toList,
      by decide +kernel, by decide⟩ (by decide +kernel)
  have hreads : ¬ document.Calls "pparamGet" := by
    rintro ⟨echo, hecho, hmem⟩
    obtain rfl := List.mem_singleton.1 hecho
    simp at hmem
  have hcalls : ∀ d, parse template = .ok d → ¬ d.Calls "pparamGet" := by
    intro d hd
    rwa [← Except.ok.inj (hparse.symm.trans hd)]
  have hfirst : ∃ r, render 0 template sink = .ok (.returned, r) ∧ r.sink.body = "?" ∧
      r.sink.scopes.persistent = ⟨[("seen", "1")]⟩ :=
    ⟨_, render_of_parse hparse (by decide +kernel), by decide +kernel, by decide +kernel⟩
  obtain ⟨first, hfirst, hbody, hpersistent⟩ := hfirst
  refine ⟨⟨document, hparse, hreads⟩, ?_⟩
  rcases (render_scopes_apart 0 template sink).2 hcalls with ⟨e, h⟩ | ⟨ending, r, edits, h⟩
  · exact absurd (hfirst.symm.trans (h .empty)) (by simp)
  · obtain ⟨rfl, rfl⟩ := Prod.mk.inj (Except.ok.inj (hfirst.symm.trans (h .empty)))
    exact ⟨r, edits, h, hbody, hpersistent⟩

end Stencil
